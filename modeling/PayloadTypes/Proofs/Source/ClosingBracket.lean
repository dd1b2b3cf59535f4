import PayloadTypes.Proofs.Source.Scanned
/-!
# The bracket that closes another

Only characters outside of strings and comments count: those in sight. Behind an
opening bracket the search stops at the first of them where the bracket has been
closed as often as it was opened (`closes_iff`), and it looks at nothing behind that
place, since no string and no comment in front of it reaches so far
(`IsOpener.enclosed?_eq_some`). The main statement says both of the places in a text
(`closingIndex?_iff`).
-/

namespace PayloadTypes.Source

variable {o c : Char} {depth : Int} {k n : Nat} {s : List Char} {x : Option Char}
variable {m : List (Option Char)} {l : Lexeme} {a b ls : List Lexeme}

/-! ## Characters in sight -/

/-- The character of a lexeme, or nothing for each one that a string or a comment hides. -/
def Lexeme.inSight : Lexeme → List (Option Char)
  | .string cs => List.replicate cs.length none
  | .comment cs => List.replicate cs.length none
  | .char c => [some c]

/-- The places of a row: the characters in sight, and nothing at the hidden ones. -/
def inSight (row : List Lexeme) : List (Option Char) := row.flatMap Lexeme.inSight

/-- How many `o` are open behind the places, `depth` being open in front of them. -/
def openBehind (o c : Char) (depth : Int) (m : List (Option Char)) : Int :=
  depth + m.count (some o) - m.count (some c)

/-- The `k`-th place is the first one in sight behind which none of the brackets is open. -/
structure Closes (o c : Char) (depth : Int) (m : List (Option Char)) (k : Nat) : Prop where
  /-- It is in sight. -/
  inSight : ∃ x, m[k]? = some (some x)
  /-- Up to it, the brackets are closed as often as they are opened. -/
  closed : openBehind o c depth (m.take (k + 1)) = 0
  /-- At no place in sight in front of it this is so. -/
  first : ∀ l < k, (∃ x, m[l]? = some (some x)) → openBehind o c depth (m.take (l + 1)) ≠ 0

/-! ## One place at a time -/

theorem openBehind_cons (x : Option Char) (m : List (Option Char)) :
    openBehind o c depth (x :: m) = openBehind o c (openBehind o c depth [x]) m := by
  simp only [openBehind, List.count_cons, List.count_nil]
  omega

theorem not_closes_nil : ¬ Closes o c depth [] k := by
  rintro ⟨⟨x, hx⟩, -, -⟩
  simp at hx

theorem closes_cons_zero_iff :
    Closes o c depth (x :: m) 0 ↔ (∃ y, x = some y) ∧ openBehind o c depth [x] = 0 := by
  constructor
  · rintro ⟨⟨y, hy⟩, hclosed, -⟩
    exact ⟨⟨y, by simpa using hy⟩, by simpa using hclosed⟩
  · rintro ⟨⟨y, rfl⟩, hclosed⟩
    exact ⟨⟨y, rfl⟩, by simpa using hclosed, fun l hl => absurd hl (Nat.not_lt_zero l)⟩

theorem closes_cons_succ_iff :
    Closes o c depth (x :: m) (k + 1) ↔
      ((∃ y, x = some y) → openBehind o c depth [x] ≠ 0) ∧
        Closes o c (openBehind o c depth [x]) m k := by
  constructor
  · rintro ⟨⟨y, hy⟩, hclosed, hfirst⟩
    rw [List.take_succ_cons, openBehind_cons] at hclosed
    -- A place in front of the first closing one is the one of `x` or a place of `m`.
    refine ⟨fun hx => ?_, ⟨y, by simpa using hy⟩, hclosed, fun l hl hsome => ?_⟩
    · simpa using hfirst 0 (Nat.succ_pos k) (by simpa using hx)
    · have := hfirst (l + 1) (Nat.succ_lt_succ hl) (by simpa using hsome)
      rwa [List.take_succ_cons, openBehind_cons] at this
  · rintro ⟨hx, ⟨y, hy⟩, hclosed, hfirst⟩
    refine ⟨⟨y, by simpa using hy⟩, ?_, fun l hl hsome => ?_⟩
    · rwa [List.take_succ_cons, openBehind_cons]
    · cases l with
      | zero => simpa using hx (by simpa using hsome)
      | succ l =>
        rw [List.take_succ_cons, openBehind_cons]
        exact hfirst l (Nat.lt_of_succ_lt_succ hl) (by simpa using hsome)

theorem openBehind_none : openBehind o c depth [none] = depth := by
  simp [openBehind]

theorem openBehind_opener (h : o ≠ c) : openBehind o c depth [some o] = depth + 1 := by
  simp [openBehind, h]

theorem openBehind_closer (h : o ≠ c) : openBehind o c depth [some c] = depth - 1 := by
  simp [openBehind, h.symm]

theorem openBehind_other {d : Char} (ho : d ≠ o) (hc : d ≠ c) :
    openBehind o c depth [some d] = depth := by
  simp [openBehind, ho, hc]

/-- Hidden places are passed over. -/
theorem closes_replicate_append_iff :
    Closes o c depth (List.replicate n none ++ m) k ↔ n ≤ k ∧ Closes o c depth m (k - n) := by
  induction n generalizing k with
  | zero => simp
  | succ n ih =>
    rw [List.replicate_succ, List.cons_append]
    cases k with
    | zero => simp [closes_cons_zero_iff]
    | succ k =>
      rw [closes_cons_succ_iff, openBehind_none, ih, Nat.succ_le_succ_iff, Nat.succ_sub_succ]
      simp

/-! ## One lexeme at a time -/

theorem openBehind_replicate_none : openBehind o c depth (List.replicate n none) = depth := by
  simp [openBehind, List.count_replicate]

/-- A lexeme that leaves a bracket open is passed over. -/
theorem closes_inSight_append_iff (hopen : openBehind o c depth l.inSight ≠ 0) :
    Closes o c depth (l.inSight ++ m) k ↔ l.chars.length ≤ k ∧
      Closes o c (openBehind o c depth l.inSight) m (k - l.chars.length) := by
  cases l with
  | string cs | comment cs =>
    rw [Lexeme.inSight, openBehind_replicate_none]
    exact closes_replicate_append_iff
  | char d =>
    rw [Lexeme.inSight] at hopen ⊢
    cases k with
    | zero => exact iff_of_false (fun hk => hopen (closes_cons_zero_iff.mp hk).2) nofun
    | succ k =>
      rw [List.singleton_append, closes_cons_succ_iff]
      exact and_congr (iff_of_true (fun _ => hopen) (Nat.le_add_left 1 k)) Iff.rfl

/-- **A step of the search**: it stops at the closing bracket of the last one that is open, and
passes over any other lexeme. -/
theorem enclosedFrom_step (h : o ≠ c) (depth : Nat) (l : Lexeme) :
    (depth = 0 ∧ l = .char c) ∨ ∃ e : Nat, openBehind o c (depth + 1) l.inSight = e + 1 ∧
      ∀ ls, enclosedFrom o c depth (l :: ls) =
        (enclosedFrom o c e ls).map (addEnclosed [l]) := by
  -- An opening bracket, a closing one at depth zero or deeper, and anything else.
  by_cases ho : l = .char o
  · subst ho
    exact .inr ⟨depth + 1, openBehind_opener h, fun _ => enclosedFrom_opener⟩
  · by_cases hc : l = .char c
    · subst hc
      cases depth with
      | zero => exact .inl ⟨rfl, rfl⟩
      | succ depth =>
        refine .inr ⟨depth, ?_, fun _ => enclosedFrom_closer_succ h⟩
        rw [Lexeme.inSight, openBehind_closer h]
        push_cast
        omega
    · refine .inr ⟨depth, ?_, fun _ => enclosedFrom_cons_of_ne ho hc⟩
      cases l with
      | string cs | comment cs => exact openBehind_replicate_none
      | char d => exact openBehind_other (by simpa using ho) (by simpa using hc)

theorem map_addEnclosed_eq_some {p : Option (List Lexeme × List Lexeme)}
    (h : p.map (addEnclosed [l]) = some (a, b)) : ∃ a', a = l :: a' ∧ p = some (a', b) := by
  obtain ⟨⟨a', b'⟩, hp, heq⟩ := Option.map_eq_some_iff.mp h
  obtain ⟨rfl, rfl⟩ := Prod.mk.inj heq
  exact ⟨a', rfl, hp⟩

/-! ## The search -/

/-- How many characters the search passes over in front of the closing bracket. -/
def closedAfter? (o c : Char) (depth : Nat) (ls : List Lexeme) : Option Nat :=
  (enclosedFrom o c depth ls).map fun p => (Lexeme.charsOf p.1).length

theorem closedAfter?_map_iff {p : Option (List Lexeme × List Lexeme)} :
    (p.map (addEnclosed [l])).map (fun p => (Lexeme.charsOf p.1).length) = some k ↔
      l.chars.length ≤ k ∧
        p.map (fun p => (Lexeme.charsOf p.1).length) = some (k - l.chars.length) := by
  cases p with
  | none => simp
  | some p =>
    simp only [Option.map_some, addEnclosed, List.singleton_append, charsOf_cons,
      List.length_append, Option.some.injEq]
    omega

/-- **The search stops at the first place in sight where the bracket is closed.** -/
theorem closes_iff (h : o ≠ c) (depth : Nat) (ls : List Lexeme) (k : Nat) :
    closedAfter? o c depth ls = some k ↔ Closes o c (depth + 1) (inSight ls) k := by
  induction ls generalizing depth k with
  | nil => exact iff_of_false (by simp [closedAfter?, enclosedFrom]) not_closes_nil
  | cons l ls ih =>
    rcases enclosedFrom_step h depth l with ⟨rfl, rfl⟩ | ⟨e, hopen, hstep⟩
    · have hclosed : openBehind o c (((0 : Nat) : Int) + 1) [some c] = 0 := openBehind_closer h
      rw [closedAfter?, enclosedFrom_closer_zero h, Option.map_some, Option.some.injEq]
      cases k with
      | zero => exact iff_of_true rfl (closes_cons_zero_iff.mpr ⟨⟨c, rfl⟩, hclosed⟩)
      | succ k =>
        refine iff_of_false (by simp [charsOf_nil]) fun hk => ?_
        exact (closes_cons_succ_iff.mp hk).1 ⟨c, rfl⟩ hclosed
    · have hne : openBehind o c (depth + 1) l.inSight ≠ 0 := by omega
      rw [closedAfter?, hstep, closedAfter?_map_iff, inSight, List.flatMap_cons,
        closes_inSight_append_iff hne, hopen]
      exact and_congr_right fun _ => ih e (k - l.chars.length)

/-- **What stands behind the closing bracket is not looked at.** -/
theorem enclosedFrom_eq_some (h : o ≠ c) {depth : Nat}
    (hsome : enclosedFrom o c depth ls = some (a, b)) :
    ls = a ++ .char c :: b ∧
      ∀ rest, enclosedFrom o c depth (a ++ .char c :: rest) = some (a, rest) := by
  induction ls generalizing depth a with
  | nil => cases hsome
  | cons l ls ih =>
    rcases enclosedFrom_step h depth l with ⟨rfl, rfl⟩ | ⟨e, -, hstep⟩
    · rw [enclosedFrom_closer_zero h] at hsome
      obtain ⟨rfl, rfl⟩ := Prod.mk.inj (Option.some.inj hsome)
      exact ⟨rfl, fun rest => enclosedFrom_closer_zero h⟩
    · rw [hstep] at hsome
      obtain ⟨a', rfl, hinner⟩ := map_addEnclosed_eq_some hsome
      obtain ⟨heq, hrest⟩ := ih hinner
      refine ⟨by rw [heq, List.cons_append], fun rest => ?_⟩
      rw [List.cons_append, hstep, hrest]
      rfl

/-! ## Texts -/

/-- **The search in a text looks at nothing behind the closing bracket.** -/
theorem IsOpener.enclosed?_eq_some {u v : List Char} (ho : IsOpener o)
    (h : enclosed? o s = some (u, v)) :
    s = u ++ closer o :: v ∧ ∀ rest, enclosed? o (u ++ closer o :: rest) = some (u, rest) := by
  have hne : o ≠ closer o := ho.ne_closer ho
  obtain ⟨⟨a, b⟩, hrow, heq⟩ := Option.map_eq_some_iff.mp h
  obtain ⟨rfl, rfl⟩ := Prod.mk.inj heq
  obtain ⟨hlex, hsearch⟩ := enclosedFrom_eq_some hne hrow
  have hscanned : Scanned s (a ++ .char (closer o) :: b) := scanned_iff.mpr hlex.symm
  refine ⟨?_, fun rest => ?_⟩
  · rw [← hscanned.charsOf_eq, charsOf_append, charsOf_cons]
    rfl
  · have hrest : Scanned (closer o :: rest) (.char (closer o) :: lexemes rest) :=
      .char (not_isQuote_of_isPlainStart ho.isPlainStart_closer)
        (startsComment_of_isPlainStart ho.isPlainStart_closer rest) (scanned_lexemes rest)
    have hnew := hscanned.append_of_startsComment (List.cons_ne_nil _ _) hrest fun _ hd => hd
    rw [enclosed?, hnew.lexemes_eq, hsearch, Option.map_some, charsOf_lexemes]

/-- The place of the bracket that closes the one at the place `i`. -/
def closingIndex? (text : List Char) (i : Nat) : Option Nat := do
  let o ← text[i]?
  let p ← enclosed? o (text.drop (i + 1))
  return i + 1 + p.1.length

theorem closingIndex?_eq {text : List Char} {i : Nat} (hi : text[i]? = some o) :
    closingIndex? text i =
      (closedAfter? o (closer o) 0 (lexemes (text.drop (i + 1)))).map (i + 1 + ·) := by
  simp only [closingIndex?, hi, closedAfter?, enclosed?, Option.bind_eq_bind, Option.bind_some,
    Option.pure_def]
  cases enclosedFrom o (closer o) 0 (lexemes (text.drop (i + 1))) <;> rfl

theorem drop_eq_cons {text : List Char} {i : Nat} (hi : text[i]? = some o) :
    text.drop i = o :: text.drop (i + 1) := by
  obtain ⟨hlt, rfl⟩ := List.getElem?_eq_some_iff.mp hi
  exact List.drop_eq_getElem_cons hlt

/-- Behind the opening bracket itself one is open. -/
theorem closes_opener_cons_iff (h : o ≠ c) :
    Closes o c 0 (some o :: m) k ↔ 0 < k ∧ Closes o c 1 m (k - 1) := by
  have hopen : openBehind o c 0 [some o] = 1 := openBehind_opener h
  cases k with
  | zero =>
    refine iff_of_false (fun hk => ?_) (fun hk => absurd hk.1 (Nat.lt_irrefl 0))
    have hzero := (closes_cons_zero_iff.mp hk).2
    omega
  | succ k =>
    rw [closes_cons_succ_iff, hopen, Nat.add_sub_cancel]
    exact and_congr (iff_of_true (fun _ => Int.one_ne_zero) (Nat.succ_pos k)) Iff.rfl

/-- The bracket is closed at the first place where its count is zero again. -/
theorem IsOpener.closingIndex?_eq_some_iff {text : List Char} {i : Nat} (ho : IsOpener o)
    (hi : text[i]? = some o) (j : Nat) :
    closingIndex? text i = some j ↔
      i < j ∧ Closes o (closer o) 0 (inSight (lexemes (text.drop i))) (j - i) := by
  have hne : o ≠ closer o := ho.ne_closer ho
  have hrow : inSight (lexemes (text.drop i)) =
      some o :: inSight (lexemes (text.drop (i + 1))) := by
    rw [drop_eq_cons hi, ho.lexemes_cons]
    rfl
  rw [hrow, closes_opener_cons_iff hne, closingIndex?_eq hi, Option.map_eq_some_iff]
  constructor
  · rintro ⟨k, hk, rfl⟩
    have hclosed := (closes_iff hne 0 _ k).mp hk
    refine ⟨by omega, by omega, ?_⟩
    rwa [show i + 1 + k - i - 1 = k by omega]
  · rintro ⟨hij, -, hclosed⟩
    exact ⟨j - i - 1, (closes_iff hne 0 _ _).mpr hclosed, by omega⟩

/-- The text up to the closing bracket decides where it is. -/
theorem IsOpener.closingIndex?_of_take_eq {text text' : List Char} {i j : Nat} (ho : IsOpener o)
    (hi : text[i]? = some o) (hj : closingIndex? text i = some j)
    (htake : text'.take (j + 1) = text.take (j + 1)) : closingIndex? text' i = some j := by
  obtain ⟨⟨u, v⟩, huv, rfl⟩ : ∃ p, enclosed? o (text.drop (i + 1)) = some p ∧
      i + 1 + p.1.length = j := by
    simpa [closingIndex?, hi, Option.bind_eq_some_iff] using hj
  -- The search reads the text up to the closing bracket, and that is what the two agree on.
  obtain ⟨hdrop, hsame⟩ := ho.enclosed?_eq_some huv
  have hi' : text'[i]? = some o := by
    have hget := congrArg (·[i]?) htake
    simp only [List.getElem?_take] at hget
    rw [if_pos (by omega), if_pos (by omega)] at hget
    rw [hget, hi]
  have hfront : (text'.drop (i + 1)).take (u.length + 1) = u ++ [closer o] := by
    have hinner := congrArg (List.drop (i + 1)) htake
    rwa [List.drop_take, List.drop_take, hdrop,
      show i + 1 + u.length + 1 - (i + 1) = u.length + 1 by omega,
      List.take_length_add_append] at hinner
  have hdrop' : text'.drop (i + 1) =
      u ++ closer o :: (text'.drop (i + 1)).drop (u.length + 1) := by
    conv_lhs => rw [← List.take_append_drop (u.length + 1) (text'.drop (i + 1)), hfront]
    rw [List.append_assoc, List.singleton_append]
  have hagain : enclosed? o (text'.drop (i + 1)) =
      some (u, (text'.drop (i + 1)).drop (u.length + 1)) := by
    rw [hdrop', hsame, ← hdrop']
  simp [closingIndex?, hi', hagain]

/-- The kinds of brackets. -/
def brackets : List (Char × Char) := [('(', ')'), ('[', ']'), ('\x7b', '\x7d')]

theorem isOpener_of_mem_brackets (h : (o, c) ∈ brackets) : IsOpener o ∧ c = closer o := by
  simp only [brackets, List.mem_cons, Prod.mk.injEq, List.not_mem_nil, or_false] at h
  rcases h with ⟨rfl, rfl⟩ | ⟨rfl, rfl⟩ | ⟨rfl, rfl⟩
  · exact ⟨.inl rfl, by decide⟩
  · exact ⟨.inr (.inl rfl), by decide⟩
  · exact ⟨.inr (.inr rfl), by decide⟩

/-- **A bracket is closed at the first place in sight behind it where as many brackets of its kind
are closed as opened**, if there is one, and the text behind that place does not matter. -/
theorem closingIndex?_iff {text : List Char} {i : Nat} (hpair : (o, c) ∈ brackets)
    (hi : text[i]? = some o) :
    (∃ row, Scanned (text.drop i) row ∧
      (∀ j, closingIndex? text i = some j ↔ i < j ∧ Closes o c 0 (inSight row) (j - i)) ∧
      (closingIndex? text i = none ↔
        ∀ j, i < j → ¬ Closes o c 0 (inSight row) (j - i))) ∧
    ∀ j, closingIndex? text i = some j → ∀ text' : List Char,
      text'.take (j + 1) = text.take (j + 1) → closingIndex? text' i = some j := by
  obtain ⟨ho, rfl⟩ := isOpener_of_mem_brackets hpair
  have hsome := ho.closingIndex?_eq_some_iff hi
  refine ⟨⟨_, scanned_lexemes _, hsome, ?_⟩, fun j hj _ => ho.closingIndex?_of_take_eq hi hj⟩
  rw [Option.eq_none_iff_forall_ne_some]
  exact forall_congr' fun j => by rw [Ne, hsome, not_and]

/-- A bracket with others of its kind behind it, in a string and in comments. -/
def hiddenBrackets : List Char := "f('(' # )\n, [')'] /* ) */, (1))) # )".toList

theorem closingIndex?_iff_hiddenBrackets :
    (('(', ')') ∈ brackets ∧ hiddenBrackets[1]? = some '(') ∧
      (∃ row, Scanned (hiddenBrackets.drop 1) row ∧ Closes '(' ')' 0 (inSight row) 29) ∧
      ∀ text', text'.take 31 = hiddenBrackets.take 31 → closingIndex? text' 1 = some 30 := by
  have hpair : ('(', ')') ∈ brackets := by decide
  have hi : hiddenBrackets[1]? = some '(' := by decide
  have hj : closingIndex? hiddenBrackets 1 = some 30 := by decide +kernel
  obtain ⟨⟨row, hrow, hiff, -⟩, hlocal⟩ := closingIndex?_iff hpair hi
  exact ⟨⟨hpair, hi⟩, ⟨row, hrow, ((hiff 30).mp hj).2⟩, hlocal 30 hj⟩

end PayloadTypes.Source
