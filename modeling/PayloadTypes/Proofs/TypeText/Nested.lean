import PayloadTypes.Proofs.TypeText.Parts
/-!
# Nested texts

A text is nested when it closes what it opens at any depth, so that inside of
brackets no separator in it separates (`IsNested`). Brackets around a nested
text make it whole at the top level as well. A unit is a nested text that no
separator of a row cuts (`IsUnit`): words are units, brackets make units, and
units that are joined with another separator are one.
-/

namespace PayloadTypes.TypeText

open Text (AllBlank IsTrimmed isBlank)

variable {sep c o : Char} {s t w : List Char} {seps : List Char} {ps : List (List Char)}

/-! ## Nested texts -/

/-- The text leaves off at the depth where it began, and inside of brackets nothing in it
separates. -/
structure IsNested (s : List Char) : Prop where
  /-- It leaves off where it began. -/
  after : ∀ n, (Scan.plain n).after s = .plain n
  /-- Inside of brackets it is one part. -/
  part : ∀ sep n, IsPart sep (.plain (n + 1)) s

theorem IsNested.isClosed (h : IsNested s) : IsClosed s := h.after 0

theorem isNested_of_isInert (h : ∀ c ∈ s, isInert c = true) : IsNested s where
  after := Scan.after_plain_of_isInert h
  part := fun _ _ => isPart_of_isInert h trivial (by simp)

theorem isNested_nil : IsNested [] := isNested_of_isInert fun _ h => absurd h List.not_mem_nil

theorem IsNested.append (hs : IsNested s) (ht : IsNested t) : IsNested (s ++ t) where
  after := fun n => by rw [Scan.after_append, hs.after, ht.after]
  part := fun sep n => isPart_append.mpr ⟨hs.part sep n, by rw [hs.after]; exact ht.part sep n⟩

theorem isNested_intercalate (hw : IsNested w) (h : ∀ p ∈ ps, IsNested p) :
    IsNested (w.intercalate ps) := by
  induction ps with
  | nil => exact isNested_nil
  | cons p ps ih =>
    have hp := h p List.mem_cons_self
    have hps := ih fun q hq => h q (List.mem_cons_of_mem _ hq)
    cases ps with
    | nil => rwa [List.intercalate_singleton]
    | cons q ps =>
      rw [List.intercalate_cons_cons]
      exact (hp.append hw).append hps

/-! ## Brackets -/

/-- An opening bracket and a closing one. -/
structure IsBrackets (o c : Char) : Prop where
  /-- The one opens. -/
  opens : isOpener o = true
  /-- The other closes. -/
  closes : isCloser c = true
  /-- The closing one does not open anything. -/
  not_opens : isOpener c = false
  /-- Neither is a quote. -/
  not_isQuote : isQuote o = false ∧ isQuote c = false

theorem isBrackets_round : IsBrackets '(' ')' := ⟨rfl, rfl, rfl, rfl, rfl⟩

theorem isBrackets_square : IsBrackets '[' ']' := ⟨rfl, rfl, rfl, rfl, rfl⟩

theorem isBrackets_angle : IsBrackets '<' '>' := ⟨rfl, rfl, rfl, rfl, rfl⟩

theorem IsBrackets.step (h : IsBrackets o c) (n : ℕ) :
    (Scan.plain n).step o = .plain (n + 1) ∧ (Scan.plain (n + 1)).step c = .plain n := by
  simp [Scan.step, h.opens, h.closes, h.not_opens, h.not_isQuote]

theorem IsBrackets.not_separates (h : IsBrackets o c) (st : Scan) :
    st.separates sep o = false ∧ st.separates sep c = false := by
  simp [Scan.separates, h.opens, h.closes]

/-- A bracket is not blank. -/
theorem IsBrackets.isBlank_eq_false (h : IsBrackets o c) :
    isBlank o = false ∧ isBlank c = false := by
  constructor
  · rw [← Bool.not_eq_true]
    intro ho
    simpa [isInert, h.opens] using isInert_of_isBlank ho
  · rw [← Bool.not_eq_true]
    intro hc
    simpa [isInert, h.closes] using isInert_of_isBlank hc

/-- **Nothing in brackets separates**, at any depth. -/
theorem IsBrackets.isPart (h : IsBrackets o c) (hs : IsNested s) (n : ℕ) :
    IsPart sep (.plain n) (o :: (s ++ [c])) := by
  refine isPart_cons.mpr ⟨(h.not_separates _).1, ?_⟩
  rw [(h.step n).1, isPart_append, hs.after, isPart_cons]
  exact ⟨hs.part sep n, (h.not_separates _).2, isPart_nil⟩

theorem IsBrackets.isNested (h : IsBrackets o c) (hs : IsNested s) :
    IsNested (o :: (s ++ [c])) where
  after := fun n => by
    rw [Scan.after_cons, (h.step n).1, Scan.after_append, hs.after, Scan.after_cons, (h.step n).2,
      Scan.after_nil]
  part := fun _ n => h.isPart hs (n + 1)

/-! ## Units -/

/-- A trimmed text that is nested and that no separator of a row cuts. -/
structure IsUnit (seps : List Char) (s : List Char) : Prop where
  /-- It is nested. -/
  nested : IsNested s
  /-- It neither starts nor ends with a blank. -/
  trimmed : IsTrimmed s
  /-- It is not empty. -/
  ne_nil : s ≠ []
  /-- No separator cuts it. -/
  part : ∀ sep ∈ seps, IsPart sep (.plain 0) s

theorem IsUnit.isPiece (h : IsUnit seps s) (hsep : sep ∈ seps) : IsPiece sep s :=
  ⟨h.trimmed, h.ne_nil, h.part sep hsep⟩

theorem IsUnit.mono {seps' : List Char} (h : IsUnit seps s) (hsub : seps' ⊆ seps) :
    IsUnit seps' s :=
  ⟨h.nested, h.trimmed, h.ne_nil, fun sep hsep => h.part sep (hsub hsep)⟩

/-- The character means nothing to the scan, is not blank and is not one of the separators. -/
def isWordChar (seps : List Char) (c : Char) : Bool := isInert c && !isBlank c && !seps.contains c

theorem isWordChar_iff :
    isWordChar seps c = true ↔ isInert c = true ∧ isBlank c = false ∧ c ∉ seps := by
  simp [isWordChar, and_assoc]

theorem isPart_of_isWordChar (h : ∀ c ∈ s, isWordChar seps c = true) (hsep : sep ∈ seps)
    {st : Scan} : IsPart sep st s :=
  isPart_of_not_mem fun hmem => (isWordChar_iff.mp (h sep hmem)).2.2 hsep

theorem isNested_of_isWordChar (h : ∀ c ∈ s, isWordChar seps c = true) : IsNested s :=
  isNested_of_isInert fun c hc => (isWordChar_iff.mp (h c hc)).1

theorem isUnit_of_isWordChar (hne : s ≠ []) (h : ∀ c ∈ s, isWordChar seps c = true) :
    IsUnit seps s where
  nested := isNested_of_isWordChar h
  trimmed := Text.isTrimmed_of_forall fun c hc => (isWordChar_iff.mp (h c hc)).2.1
  ne_nil := hne
  part := fun _ hsep => isPart_of_isWordChar h hsep

/-- **Brackets make a unit**, with or without a word in front of them. -/
theorem IsBrackets.isUnit (h : IsBrackets o c) (hw : ∀ x ∈ w, isWordChar seps x = true)
    (hs : IsNested s) : IsUnit seps (w ++ o :: (s ++ [c])) where
  nested := (isNested_of_isWordChar hw).append (h.isNested hs)
  trimmed := by
    have hc := h.isBlank_eq_false.2
    cases w with
    | nil => exact Text.isTrimmed_of_ends h.isBlank_eq_false.1 hc
    | cons x w =>
      have hx := (isWordChar_iff.mp (hw x List.mem_cons_self)).2.1
      simpa using Text.isTrimmed_of_ends (s := w ++ o :: s) hx hc
  ne_nil := by simp
  part := fun sep hsep => by
    have hclosed : (Scan.plain 0).after w = .plain 0 := (isNested_of_isWordChar hw).isClosed
    rw [isPart_append, hclosed]
    exact ⟨isPart_of_isWordChar hw hsep, h.isPart hs 0⟩

/-- Brackets with nothing in them may stand behind a unit. -/
theorem IsUnit.append_brackets (hs : IsUnit seps s) (h : IsBrackets o c) :
    IsUnit seps (s ++ [o, c]) where
  nested := hs.nested.append (h.isNested isNested_nil)
  trimmed := by
    obtain ⟨x, t, rfl⟩ := List.exists_cons_of_ne_nil hs.ne_nil
    have hx : isBlank x = false := hs.trimmed.1 x rfl
    simpa using Text.isTrimmed_of_ends (s := t ++ [o]) hx h.isBlank_eq_false.2
  ne_nil := by simp
  part := fun sep hsep => by
    have hclosed : (Scan.plain 0).after s = .plain 0 := hs.nested.isClosed
    rw [isPart_append, hclosed]
    exact ⟨hs.part sep hsep, h.isPart isNested_nil 0⟩

/-- A word character may stand in front of a unit. -/
theorem IsUnit.cons (hs : IsUnit seps s) (hc : isWordChar seps c = true) :
    IsUnit seps (c :: s) := by
  have hword : ∀ x ∈ [c], isWordChar seps x = true := by simpa using hc
  have hunit := isUnit_of_isWordChar (List.cons_ne_nil c []) hword
  have hclosed : (Scan.plain 0).after [c] = .plain 0 := hunit.nested.isClosed
  refine ⟨hunit.nested.append hs.nested, ?_, List.cons_ne_nil _ _, fun sep hsep => ?_⟩
  · exact hunit.trimmed.append_append (w := []) hunit.ne_nil hs.trimmed hs.ne_nil
  · refine isPart_append (s := [c]).mpr ⟨hunit.part sep hsep, ?_⟩
    rw [hclosed]
    exact hs.part sep hsep

/-- **Joined units are one**, if what joins them is no separator of theirs. -/
theorem isUnit_intercalate (hw : ∀ c ∈ w, isInert c = true ∧ c ∉ seps) (hne : ps ≠ [])
    (h : ∀ p ∈ ps, IsUnit seps p) : IsUnit seps (w.intercalate ps) := by
  have hnested : IsNested w := isNested_of_isInert fun c hc => (hw c hc).1
  induction ps with
  | nil => exact absurd rfl hne
  | cons p ps ih =>
    have hp := h p List.mem_cons_self
    cases ps with
    | nil => rwa [List.intercalate_singleton]
    | cons q ps =>
      have hps := ih (List.cons_ne_nil _ _) fun x hx => h x (List.mem_cons_of_mem _ hx)
      have hpclosed : (Scan.plain 0).after p = .plain 0 := hp.nested.isClosed
      have hwclosed : (Scan.plain 0).after w = .plain 0 := hnested.isClosed
      rw [List.intercalate_cons_cons]
      refine ⟨(hp.nested.append hnested).append hps.nested,
        hp.trimmed.append_append hp.ne_nil hps.trimmed hps.ne_nil,
        by simp [hp.ne_nil], fun sep hsep => ?_⟩
      rw [isPart_append, isPart_append, Scan.after_append, hpclosed, hwclosed]
      exact ⟨⟨hp.part sep hsep, isPart_of_not_mem fun hmem => (hw sep hmem).2 hsep⟩,
        hps.part sep hsep⟩

end PayloadTypes.TypeText
