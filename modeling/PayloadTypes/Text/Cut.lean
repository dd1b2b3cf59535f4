import PayloadTypes.Text.Blank
/-!
# Cutting texts

Cutting a text at a separator, once or everywhere, and putting the pieces
together again. A text without the separator is its own only piece.
-/

namespace PayloadTypes.Text

/-- The pieces of a text between the characters that equal `sep`. -/
def splitOn (sep : Char) : List Char → List (List Char)
  | [] => [[]]
  | c :: s =>
    if c = sep then [] :: splitOn sep s
    else
      match splitOn sep s with
      | [] => [[c]]
      | p :: ps => (c :: p) :: ps

/-- The text before and after the first character that equals `sep`. -/
def cut? (sep : Char) : List Char → Option (List Char × List Char)
  | [] => none
  | c :: s => if c = sep then some ([], s) else (cut? sep s).map fun p => (c :: p.1, p.2)

/-- What is left of a text that starts with `w`. -/
def after? : (w s : List Char) → Option (List Char)
  | [], s => some s
  | _ :: _, [] => none
  | c :: w, d :: s => if c = d then after? w s else none

/-- The text before and after the first place where `w` stands. -/
def cutText? (w : List Char) : List Char → Option (List Char × List Char)
  | [] => if w.isEmpty then some ([], []) else none
  | c :: s =>
    match after? w (c :: s) with
    | some rest => some ([], rest)
    | none => (cutText? w s).map fun p => (c :: p.1, p.2)

theorem after?_eq_some {w s r : List Char} (h : after? w s = some r) : s = w ++ r := by
  fun_induction after? w s <;> simp_all

theorem cutText?_eq_some {w s a b : List Char} (h : cutText? w s = some (a, b)) :
    s = a ++ w ++ b := by
  induction s generalizing a b with
  | nil =>
    rw [cutText?] at h
    split at h
    · simp_all
    · cases h
  | cons c s ih =>
    rw [cutText?] at h
    split at h
    · next hr =>
      obtain ⟨rfl, rfl⟩ := Prod.mk.inj (Option.some.inj h)
      exact after?_eq_some hr
    · obtain ⟨p, hp, hab⟩ := Option.map_eq_some_iff.mp h
      obtain ⟨rfl, rfl⟩ := Prod.mk.inj hab
      simp [ih hp]

/-- The text before and after the last place where `w` stands. -/
def cutLast? (w : List Char) (s : List Char) : Option (List Char × List Char) :=
  (cutText? w.reverse s.reverse).map fun p => (p.2.reverse, p.1.reverse)

theorem cutLast?_eq_some {w s a b : List Char} (h : cutLast? w s = some (a, b)) :
    s = a ++ w ++ b := by
  obtain ⟨p, hp, hab⟩ := Option.map_eq_some_iff.mp h
  obtain ⟨rfl, rfl⟩ := Prod.mk.inj hab
  simpa [List.append_assoc] using congrArg List.reverse (cutText?_eq_some hp)

/-- `w` stands somewhere in the text. -/
def contains (w s : List Char) : Bool := (cutText? w s).isSome

/-- What stands in front of `w` in a text that ends with it. -/
def before? (w s : List Char) : Option (List Char) :=
  (after? w.reverse s.reverse).map List.reverse

theorem before?_eq_some {w s a : List Char} (h : before? w s = some a) : s = a ++ w := by
  obtain ⟨r, hr, rfl⟩ := Option.map_eq_some_iff.mp h
  simpa using congrArg List.reverse (after?_eq_some hr)

/-- The text starts with `w`. -/
def startsWith (w s : List Char) : Bool := (after? w s).isSome

/-- The text ends with `w`. -/
def endsWith (w s : List Char) : Bool := (before? w s).isSome

/-- The text after the last character that equals `sep`, or all of it. -/
def lastPiece (sep : Char) (s : List Char) : List Char :=
  (s.reverse.takeWhile (· != sep)).reverse

/-- The pieces with `sep` between them. -/
def join (sep : List Char) (pieces : List (List Char)) : List Char := sep.intercalate pieces

/-- Every `a` that `b` follows becomes `c`, together with that `b`. -/
def replacePair (a b c : Char) : List Char → List Char
  | [] => []
  | [x] => [x]
  | x :: y :: s =>
    if x = a ∧ y = b then c :: replacePair a b c s else x :: replacePair a b c (y :: s)

/-- Every `q` gets the character `e` in front of it. -/
def escapeWith (e q : Char) (s : List Char) : List Char :=
  s.flatMap fun c => if c = q then [e, q] else [c]

end PayloadTypes.Text
