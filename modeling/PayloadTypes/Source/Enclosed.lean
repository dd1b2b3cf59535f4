import PayloadTypes.Source.Lexeme
import PayloadTypes.Text.Blank
/-!
# Brackets and commas

What a bracket encloses reaches to the first place behind it where that
kind of bracket is closed as often as it was opened; other kinds do not
matter. A list is split at the commas outside of all brackets. Strings and
comments hide what they hold, and a comment leaves a blank or a line break
in the parts of a list.
-/

namespace PayloadTypes.Source

/-- The bracket that closes an opening one. -/
def closer (o : Char) : Char :=
  if o = '(' then ')' else if o = '[' then ']' else if o = '\x7b' then '\x7d' else o

/-- The lexemes up to the closing bracket, `depth` more being open, and those behind it. -/
def enclosedFrom (o c : Char) : (depth : Nat) → List Lexeme → Option (List Lexeme × List Lexeme)
  | _, [] => none
  | depth, l :: ls =>
    -- brackets in strings and comments are none, as those are lexemes of their own
    let inner := fun d => (enclosedFrom o c d ls).map fun p => (l :: p.1, p.2)
    if l = .char o then inner (depth + 1)
    else if l = .char c then
      match depth with
      | 0 => some ([], ls)
      | d + 1 => inner d
    else inner depth

/-- What an opening bracket encloses, given the text behind it, and the text behind its closing
bracket. -/
def enclosed? (o : Char) (s : List Char) : Option (List Char × List Char) :=
  (enclosedFrom o (closer o) 0 (lexemes s)).map fun p =>
    (Lexeme.charsOf p.1, Lexeme.charsOf p.2)

/-- What is left of a comment in a part of a list. -/
def commentMark (cs : List Char) : Char := if cs.getLast? = some '\n' then '\n' else ' '

/-- How a character changes the depth of brackets. -/
def depthChange (c : Char) : Int :=
  if c = '[' ∨ c = '(' ∨ c = '\x7b' then 1
  else if c = ']' ∨ c = ')' ∨ c = '\x7d' then -1
  else 0

/-- The parts between top-level commas from a depth on, `current` being read of the first one. -/
def splitCommasFrom (depth : Int) (current : List Char) : List Lexeme → List (List Char)
  | [] => if Text.trim current = [] then [] else [current]
  | .string cs :: ls => splitCommasFrom depth (current ++ cs) ls
  | .comment cs :: ls => splitCommasFrom depth (current ++ [commentMark cs]) ls
  | .char c :: ls =>
    if c = ',' ∧ depth = 0 then current :: splitCommasFrom depth [] ls
    else splitCommasFrom (depth + depthChange c) (current ++ [c]) ls

/-- The parts of a text between its top-level commas; a blank last part is left out. -/
def splitCommas (s : List Char) : List (List Char) := splitCommasFrom 0 [] (lexemes s)

theorem enclosedFrom_append {o c : Char} {depth : Nat} {ls a b : List Lexeme}
    (h : enclosedFrom o c depth ls = some (a, b)) :
    ∃ l, ls = a ++ l :: b := by
  induction ls generalizing depth a with
  | nil => cases h
  | cons l ls ih =>
    have step : ∀ d, (enclosedFrom o c d ls).map (fun p => (l :: p.1, p.2)) = some (a, b) →
        ∃ x, l :: ls = a ++ x :: b := by
      intro d hd
      obtain ⟨p, hp, hab⟩ := Option.map_eq_some_iff.mp hd
      obtain ⟨rfl, rfl⟩ := Prod.mk.inj hab
      obtain ⟨x, hx⟩ := ih hp
      exact ⟨x, by rw [hx]; rfl⟩
    unfold enclosedFrom at h
    split at h
    · exact step _ h
    · split at h
      · split at h
        · obtain ⟨rfl, rfl⟩ := Prod.mk.inj (Option.some.inj h)
          exact ⟨l, rfl⟩
        · exact step _ h
      · exact step _ h

theorem length_charsOf_le {a : List Lexeme} {l : Lexeme} {b : List Lexeme} :
    (Lexeme.charsOf a).length + (Lexeme.charsOf b).length ≤
      (Lexeme.charsOf (a ++ l :: b)).length := by
  simp only [Lexeme.charsOf, List.flatMap_append, List.flatMap_cons, List.length_append]
  omega

theorem length_enclosed? {o : Char} {s a b : List Char} (h : enclosed? o s = some (a, b)) :
    a.length + b.length ≤ s.length := by
  obtain ⟨p, hp, hab⟩ := Option.map_eq_some_iff.mp h
  obtain ⟨rfl, rfl⟩ := Prod.mk.inj hab
  obtain ⟨l, hl⟩ := enclosedFrom_append hp
  have := length_charsOf_le (a := p.1) (l := l) (b := p.2)
  rwa [← hl, charsOf_lexemes] at this

theorem length_le_of_mem_splitCommasFrom {depth : Int} {current p : List Char} {ls : List Lexeme}
    (hne : ∀ l ∈ ls, l.chars ≠ []) (h : p ∈ splitCommasFrom depth current ls) :
    p.length ≤ current.length + (Lexeme.charsOf ls).length := by
  induction ls generalizing depth current with
  | nil =>
    rw [splitCommasFrom] at h
    split at h
    · cases h
    · simp_all
  | cons l ls ih =>
    have hl := List.length_pos_iff.mpr (hne l (List.mem_cons_self ..))
    have hls : ∀ x ∈ ls, x.chars ≠ [] := fun x hx => hne x (List.mem_cons_of_mem _ hx)
    have hsum :
        (Lexeme.charsOf (l :: ls)).length = l.chars.length + (Lexeme.charsOf ls).length := by
      simp [Lexeme.charsOf]
    cases l with
    | string cs =>
      have := ih hls (by simpa [splitCommasFrom] using h)
      simp only [Lexeme.chars, List.length_append] at *
      omega
    | comment cs =>
      have := ih hls (by simpa [splitCommasFrom] using h)
      simp only [Lexeme.chars, List.length_append, List.length_cons, List.length_nil] at *
      omega
    | char c =>
      rw [splitCommasFrom] at h
      simp only [Lexeme.chars, List.length_cons, List.length_nil] at hsum
      split at h
      · rcases List.mem_cons.mp h with rfl | h
        · omega
        · have := ih hls h
          simp only [List.length_nil] at this
          omega
      · have := ih hls h
        simp only [List.length_append, List.length_cons, List.length_nil] at this
        omega

theorem chars_ne_nil_of_mem_lexemes {s : List Char} {l : Lexeme} (h : l ∈ lexemes s) :
    l.chars ≠ [] := by
  fun_induction lexemes s with
  | case1 => cases h
  | case2 c s p hlen ih =>
    rcases List.mem_cons.mp h with rfl | h
    · exact chars_cutLexeme_ne_nil c s
    · exact ih h

/-- A part of a list is no longer than the list. -/
theorem length_le_of_mem_splitCommas {s p : List Char} (h : p ∈ splitCommas s) :
    p.length ≤ s.length := by
  have := length_le_of_mem_splitCommasFrom (fun l hl => chars_ne_nil_of_mem_lexemes hl) h
  simpa using this

end PayloadTypes.Source
