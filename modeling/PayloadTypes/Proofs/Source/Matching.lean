import PayloadTypes.Source.Enclosed
/-!
# Matched brackets

A row of lexemes is matched when every bracket in it is closed in it by one of
its kind. A search for a closing bracket passes over such a row
(`Matched.enclosedFrom_append`), and a list is not split inside of it unless it
has a comma of its own (`Matched.splitCommasFrom_append`).
-/

namespace PayloadTypes.Source

variable {commas : Bool} {o c : Char} {depth : Nat} {l : Lexeme} {row ls : List Lexeme}

/-! ## Brackets -/

/-- An opening bracket of any kind. -/
def IsOpener (o : Char) : Prop := o = '(' ∨ o = '[' ∨ o = '\x7b'

theorem IsOpener.depthChange (ho : IsOpener o) : depthChange o = 1 := by
  rcases ho with rfl | rfl | rfl <;> decide

theorem IsOpener.depthChange_closer (ho : IsOpener o) : Source.depthChange (closer o) = -1 := by
  rcases ho with rfl | rfl | rfl <;> decide

theorem IsOpener.ne_closer (ho : IsOpener o) (hc : IsOpener c) : o ≠ closer c := by
  intro h
  have hchange := congrArg Source.depthChange h
  rw [ho.depthChange, hc.depthChange_closer] at hchange
  cases hchange

theorem IsOpener.closer_ne_closer (ho : IsOpener o) (hc : IsOpener c) (h : o ≠ c) :
    closer o ≠ closer c := by
  rcases ho with rfl | rfl | rfl <;> rcases hc with rfl | rfl | rfl <;>
    first | decide | exact absurd rfl h

/-- A character that is no bracket neither opens nor closes one. -/
theorem IsOpener.ne_of_depthChange (ho : IsOpener o) (hc : Source.depthChange c = 0) :
    c ≠ o ∧ c ≠ closer o := by
  constructor
  · rintro rfl
    rw [ho.depthChange] at hc
    cases hc
  · rintro rfl
    rw [ho.depthChange_closer] at hc
    cases hc

/-! ## Matched rows -/

/-- The brackets of a row match, with `commas` outside of them or without; it has no comments. -/
inductive Matched : (commas : Bool) → List Lexeme → Prop
  /-- Nothing. -/
  | nil {commas : Bool} : Matched commas []
  /-- A string in front. -/
  | string {commas : Bool} {row : List Lexeme} (cs : List Char) (h : Matched commas row) :
      Matched commas (.string cs :: row)
  /-- A character in front that is no bracket. -/
  | char {commas : Bool} {c : Char} {row : List Lexeme} (hd : depthChange c = 0)
      (hcomma : c = ',' → commas = true) (h : Matched commas row) : Matched commas (.char c :: row)
  /-- A matched row in brackets in front. -/
  | group {commas : Bool} {o : Char} {inner row : List Lexeme} (ho : IsOpener o)
      (hinner : Matched true inner) (h : Matched commas row) :
      Matched commas (.char o :: (inner ++ .char (closer o) :: row))

/-! ## Searching for a closing bracket -/

/-- Lexemes in front of those that a bracket encloses. -/
def addEnclosed (ls : List Lexeme) (p : List Lexeme × List Lexeme) : List Lexeme × List Lexeme :=
  (ls ++ p.1, p.2)

theorem map_addEnclosed_nil (x : Option (List Lexeme × List Lexeme)) :
    x.map (addEnclosed []) = x := by
  cases x <;> rfl

theorem map_addEnclosed_map {a b : List Lexeme} {x : Option (List Lexeme × List Lexeme)} :
    (x.map (addEnclosed b)).map (addEnclosed a) = x.map (addEnclosed (a ++ b)) := by
  cases x <;> simp [addEnclosed]

theorem enclosedFrom_cons_of_ne (ho : l ≠ .char o) (hc : l ≠ .char c) :
    enclosedFrom o c depth (l :: ls) = (enclosedFrom o c depth ls).map (addEnclosed [l]) := by
  rw [enclosedFrom.eq_def]
  simp only [ho, hc, if_false]
  rfl

theorem enclosedFrom_opener :
    enclosedFrom o c depth (.char o :: ls) =
      (enclosedFrom o c (depth + 1) ls).map (addEnclosed [.char o]) := by
  rw [enclosedFrom.eq_def]
  simp only [if_true]
  rfl

theorem enclosedFrom_closer_succ (h : o ≠ c) :
    enclosedFrom o c (depth + 1) (.char c :: ls) =
      (enclosedFrom o c depth ls).map (addEnclosed [.char c]) := by
  simp only [enclosedFrom, Lexeme.char.injEq, h.symm, if_false, if_true]
  rfl

theorem enclosedFrom_closer_zero (h : o ≠ c) :
    enclosedFrom o c 0 (.char c :: ls) = some ([], ls) := by
  simp only [enclosedFrom, Lexeme.char.injEq, h.symm, if_false, if_true]

/-- **The brackets of a matched row are closed in it**, so the search leaves it at the depth at
which it entered. -/
theorem Matched.enclosedFrom_append (h : Matched commas row) (ho : IsOpener o) (depth : Nat)
    (ls : List Lexeme) :
    enclosedFrom o (closer o) depth (row ++ ls) =
      (enclosedFrom o (closer o) depth ls).map (addEnclosed row) := by
  induction h generalizing depth ls with
  | nil => rw [List.nil_append, map_addEnclosed_nil]
  | string cs _ ih =>
    rw [List.cons_append, enclosedFrom_cons_of_ne (by simp) (by simp), ih, map_addEnclosed_map]
    rfl
  | char hd _ _ ih =>
    obtain ⟨hopen, hclose⟩ := ho.ne_of_depthChange hd
    rw [List.cons_append, enclosedFrom_cons_of_ne (by simpa using hopen) (by simpa using hclose),
      ih, map_addEnclosed_map]
    rfl
  | @group _ o' inner row ho' _ _ ihinner ih =>
    rw [List.cons_append, List.append_assoc, List.cons_append]
    by_cases hkind : o' = o
    -- a bracket of the kind looked for goes one deeper and comes back
    · subst hkind
      rw [enclosedFrom_opener, ihinner, enclosedFrom_closer_succ (ho.ne_closer ho), ih]
      simp only [map_addEnclosed_map]
      rfl
    -- brackets of another kind are characters like any other
    · rw [enclosedFrom_cons_of_ne (by simpa using hkind) (by simpa using ho'.ne_closer ho), ihinner,
        enclosedFrom_cons_of_ne (by simpa using (ho.ne_closer ho').symm)
          (by simpa using ho'.closer_ne_closer ho hkind), ih]
      simp only [map_addEnclosed_map]
      rfl

/-! ## Splitting at commas -/

/-- **A matched row belongs to one part of a list**, unless a comma of its own separates. -/
theorem Matched.splitCommasFrom_append (h : Matched commas row) {depth : Int} (hdepth : 0 ≤ depth)
    (hcommas : commas = true → 0 < depth) (current : List Char) (ls : List Lexeme) :
    splitCommasFrom depth current (row ++ ls) =
      splitCommasFrom depth (current ++ Lexeme.charsOf row) ls := by
  induction h generalizing depth current ls with
  | nil => simp [Lexeme.charsOf]
  | string cs _ ih =>
    rw [List.cons_append, splitCommasFrom, ih hdepth hcommas]
    simp [Lexeme.charsOf, Lexeme.chars]
  | char hd hcomma _ ih =>
    have hno : ¬ (_ = ',' ∧ depth = 0) := fun hsep =>
      absurd (hcommas (hcomma hsep.1)) (by omega)
    rw [List.cons_append, splitCommasFrom, if_neg hno, hd, Int.add_zero, ih hdepth hcommas]
    simp [Lexeme.charsOf, Lexeme.chars]
  | @group _ o inner row ho _ _ ihinner ih =>
    -- one deeper no comma separates, so the inner row may have some
    have hopen : o ≠ ',' := by
      rintro rfl
      cases ho.depthChange
    have hclose : closer o ≠ ',' := by
      intro heq
      have := heq ▸ ho.depthChange_closer
      cases this
    rw [List.cons_append, List.append_assoc, List.cons_append, splitCommasFrom,
      if_neg (fun hsep => hopen hsep.1), ho.depthChange, ihinner (by omega) (fun _ => by omega),
      splitCommasFrom, if_neg (fun hsep => hclose hsep.1), ho.depthChange_closer,
      Int.add_neg_cancel_right, ih hdepth hcommas]
    simp [Lexeme.charsOf, Lexeme.chars]

end PayloadTypes.Source
