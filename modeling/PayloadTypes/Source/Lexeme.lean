import PayloadTypes.Text.Cut
/-!
# Lexemes of source texts

PHP source is read as a row of quoted strings, comments and single
characters. A backslash in a string takes the next character with it; a
comment runs to the end of its line or to the end mark of a block, and
`#[` starts none. What is not closed runs to the end of the text. No
character is lost: the texts of the lexemes make up the source.
-/

namespace PayloadTypes.Source

open Text (cutText?)

/-- A piece of source text. -/
inductive Lexeme where
  /-- A string with its quotes. -/
  | string (cs : List Char)
  /-- A comment with its marks. -/
  | comment (cs : List Char)
  /-- Any other character. -/
  | char (c : Char)
deriving DecidableEq, Repr

/-- The text of a lexeme. -/
def Lexeme.chars : Lexeme → List Char
  | .string cs => cs
  | .comment cs => cs
  | .char c => [c]

/-- The text of a row of lexemes. -/
def Lexeme.charsOf (ls : List Lexeme) : List Char := ls.flatMap Lexeme.chars

/-- What a string takes of the text behind its opening quote `q`, and what it leaves. -/
def cutString (q : Char) : List Char → List Char × List Char
  | [] => ([], [])
  | [c] => ([c], [])
  | c :: d :: s =>
    if c = '\\' then (c :: d :: (cutString q s).1, (cutString q s).2)
    else if c = q then ([c], d :: s)
    else (c :: (cutString q (d :: s)).1, (cutString q (d :: s)).2)

/-- What a comment up to the end mark `w` takes, and what it leaves. -/
def cutThrough (w s : List Char) : List Char × List Char :=
  match cutText? w s with
  | some (a, b) => (a ++ w, b)
  | none => (s, [])

/-- The comment that a text starts with, and what it leaves. -/
def cutComment? : List Char → Option (List Char × List Char)
  | [] => none
  | [c] => if c = '#' then some ([c], []) else none
  | c :: d :: s =>
    if c = '/' ∧ d = '*' then
      let p := cutThrough ['*', '/'] s
      some (c :: d :: p.1, p.2)
    -- a hash with a bracket behind it starts an attribute
    else if (c = '/' ∧ d = '/') ∨ (c = '#' ∧ d ≠ '[') then some (cutThrough ['\n'] (c :: d :: s))
    else none

/-- The first lexeme of a text that starts with `c`, and what it leaves. -/
def cutLexeme (c : Char) (s : List Char) : Lexeme × List Char :=
  if c = '\'' ∨ c = '"' then
    let p := cutString c s
    (.string (c :: p.1), p.2)
  else
    match cutComment? (c :: s) with
    | some (w, r) => (.comment w, r)
    | none => (.char c, s)

theorem cutString_append (q : Char) (s : List Char) :
    (cutString q s).1 ++ (cutString q s).2 = s := by
  fun_induction cutString q s <;> simp_all

theorem cutThrough_append (w s : List Char) : (cutThrough w s).1 ++ (cutThrough w s).2 = s := by
  rw [cutThrough]
  split
  · next h => simp [Text.cutText?_eq_some h]
  · simp

theorem cutComment?_append {s w r : List Char} (h : cutComment? s = some (w, r)) :
    w ++ r = s ∧ w ≠ [] := by
  match s with
  | [] => cases h
  | [c] =>
    rw [cutComment?] at h
    split at h
    · cases h; simp
    · cases h
  | c :: d :: s =>
    rw [cutComment?] at h
    split at h
    · obtain ⟨rfl, rfl⟩ := Prod.mk.inj (Option.some.inj h)
      simp [cutThrough_append]
    · split at h
      · have hp := Option.some.inj h
        have happ := cutThrough_append ['\n'] (c :: d :: s)
        rw [hp] at happ
        refine ⟨happ, fun hw => ?_⟩
        simp only [cutThrough] at hp
        split at hp
        · obtain ⟨rfl, -⟩ := Prod.mk.inj hp
          simp at hw
        · obtain ⟨rfl, -⟩ := Prod.mk.inj hp
          simp at hw
      · cases h

theorem cutLexeme_append (c : Char) (s : List Char) :
    (cutLexeme c s).1.chars ++ (cutLexeme c s).2 = c :: s := by
  rw [cutLexeme]
  split
  · simp [Lexeme.chars, cutString_append]
  · split
    · next h => exact (cutComment?_append h).1
    · rfl

theorem chars_cutLexeme_ne_nil (c : Char) (s : List Char) :
    (cutLexeme c s).1.chars ≠ [] := by
  rw [cutLexeme]
  split
  · simp [Lexeme.chars]
  · split
    · next h => exact (cutComment?_append h).2
    · simp [Lexeme.chars]

theorem length_cutLexeme (c : Char) (s : List Char) :
    (cutLexeme c s).2.length ≤ s.length := by
  have h := congrArg List.length (cutLexeme_append c s)
  have hne := List.length_pos_iff.mpr (chars_cutLexeme_ne_nil c s)
  simp only [List.length_append, List.length_cons] at h
  omega

/-- The lexemes of a text. -/
def lexemes : List Char → List Lexeme
  | [] => []
  | c :: s =>
    let p := cutLexeme c s
    have := length_cutLexeme c s
    p.1 :: lexemes p.2
termination_by s => s.length
decreasing_by
  simp only [List.length_cons]
  omega

@[simp] theorem lexemes_nil : lexemes [] = [] := by rw [lexemes]

theorem lexemes_cons (c : Char) (s : List Char) :
    lexemes (c :: s) = (cutLexeme c s).1 :: lexemes (cutLexeme c s).2 := by
  rw [lexemes]

@[simp] theorem charsOf_lexemes (s : List Char) : Lexeme.charsOf (lexemes s) = s := by
  fun_induction lexemes s with
  | case1 => rfl
  | case2 c s p h ih =>
    simp only [Lexeme.charsOf, List.flatMap_cons]
    simp only [Lexeme.charsOf] at ih
    rw [ih]
    exact cutLexeme_append c s

end PayloadTypes.Source
