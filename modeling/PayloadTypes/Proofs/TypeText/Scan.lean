import PayloadTypes.Proofs.Text.Trim
import PayloadTypes.TypeText.Length
/-!
# Scanning in pieces

A scan of two texts one after the other is a scan of the second from where
the first one leaves off (`splitFrom_append`). A text is closed when it leaves
off where it began, at depth zero outside of quotes: only behind a closed text
does a separator separate. Of the parts of a text all but the last are closed,
and none of them has a separator of its own (`splitFrom_eq_cons`).
-/

namespace PayloadTypes.TypeText

open Text (AllBlank isBlank)

variable {sep c : Char} {st : Scan} {s t p : List Char} {ps qs : List (List Char)}

/-! ## Where a text leaves off -/

@[simp] theorem Scan.after_nil (st : Scan) : st.after [] = st := rfl

@[simp] theorem Scan.after_cons (st : Scan) (c : Char) (s : List Char) :
    st.after (c :: s) = (st.step c).after s := rfl

theorem Scan.after_append (st : Scan) (s t : List Char) :
    st.after (s ++ t) = (st.after s).after t := List.foldl_append

/-- The quotes one is in are quotes. -/
def Scan.IsProper : Scan → Prop
  | .plain _ => True
  | .quoted _ q _ => isQuote q = true

theorem Scan.IsProper.step (h : st.IsProper) (c : Char) : (st.step c).IsProper := by
  cases st with
  | plain d =>
    simp only [Scan.step]
    split
    · assumption
    · split
      · trivial
      · split <;> trivial
  | quoted d q e =>
    cases e with
    | true => exact h
    | false =>
      simp only [Scan.step]
      split
      · exact h
      · split
        · trivial
        · exact h

theorem Scan.IsProper.after (h : st.IsProper) (s : List Char) : (st.after s).IsProper := by
  induction s generalizing st with
  | nil => exact h
  | cons c s ih => exact ih (h.step c)

theorem isProper_after_plain (d : ℕ) (s : List Char) : ((Scan.plain d).after s).IsProper :=
  @Scan.IsProper.after (.plain d) trivial s

/-- The text leaves off where it began: its brackets and quotes are closed. -/
def IsClosed (s : List Char) : Prop := (Scan.plain 0).after s = .plain 0

instance (s : List Char) : Decidable (IsClosed s) :=
  inferInstanceAs (Decidable ((Scan.plain 0).after s = .plain 0))

theorem IsClosed.append (hs : IsClosed s) (ht : IsClosed t) : IsClosed (s ++ t) := by
  rw [IsClosed, Scan.after_append, hs, ht]

/-! ## Characters that change nothing -/

/-- A character that is no quote and no bracket. -/
def isInert (c : Char) : Bool := !isQuote c && !isOpener c && !isCloser c

/-- The quotes and brackets. -/
def marks : List Char := ['\'', '"', '<', '(', '[', '\x7b', '>', ')', ']', '\x7d']

theorem isInert_of_forall_marks {p : Char → Bool} (hp : marks.all (fun x => !p x) = true)
    (h : p c = true) : isInert c = true := by
  by_contra hc
  have hmark : c ∈ marks := by
    by_contra hmem
    simp only [marks, List.mem_cons, List.not_mem_nil, or_false, not_or] at hmem
    exact hc (by simp [isInert, isQuote, isOpener, isCloser, hmem])
  have := List.all_eq_true.mp hp c hmark
  simp [h] at this

theorem isInert_of_isBlank (h : isBlank c = true) : isInert c = true :=
  isInert_of_forall_marks (by decide) h

theorem Scan.step_plain_of_isInert (h : isInert c = true) (d : ℕ) :
    (Scan.plain d).step c = .plain d := by
  simp only [isInert, Bool.and_eq_true, Bool.not_eq_true'] at h
  simp [Scan.step, h]

theorem Scan.after_plain_of_isInert (h : ∀ c ∈ s, isInert c = true) (d : ℕ) :
    (Scan.plain d).after s = .plain d := by
  induction s with
  | nil => rfl
  | cons c s ih =>
    rw [Scan.after_cons, Scan.step_plain_of_isInert (h c List.mem_cons_self)]
    exact ih fun x hx => h x (List.mem_cons_of_mem _ hx)

theorem isClosed_of_isInert (h : ∀ c ∈ s, isInert c = true) : IsClosed s :=
  Scan.after_plain_of_isInert h 0

theorem isClosed_of_allBlank (h : AllBlank s) : IsClosed s :=
  isClosed_of_isInert fun c hc => isInert_of_isBlank (h c hc)

/-- What changes nothing closes nothing. -/
theorem Scan.step_ne_plain_of_isInert (h : isInert c = true) (hp : st.IsProper)
    (hst : st ≠ .plain 0) : st.step c ≠ .plain 0 := by
  cases st with
  | plain d => rwa [Scan.step_plain_of_isInert h]
  | quoted d q e =>
    have hq : c ≠ q := by
      rintro rfl
      simp only [Scan.IsProper] at hp
      simp [isInert, hp] at h
    cases e with
    | true => simp [Scan.step]
    | false =>
      simp only [Scan.step, hq, if_false]
      split <;> simp

theorem Scan.after_ne_plain_of_isInert (h : ∀ c ∈ s, isInert c = true) (hp : st.IsProper)
    (hst : st ≠ .plain 0) : st.after s ≠ .plain 0 := by
  induction s generalizing st with
  | nil => exact hst
  | cons c s ih =>
    exact ih (fun x hx => h x (List.mem_cons_of_mem _ hx)) (hp.step c)
      (step_ne_plain_of_isInert (h c List.mem_cons_self) hp hst)

/-- **Trimming a closed text leaves it closed.** -/
theorem IsClosed.trim (h : IsClosed s) : IsClosed (Text.trim s) := by
  obtain ⟨a, b, ha, hb, hs⟩ := Text.exists_eq_trim s
  by_contra hne
  rw [IsClosed, hs, Scan.after_append, isClosed_of_allBlank ha, Scan.after_append] at h
  exact Scan.after_ne_plain_of_isInert (fun c hc => isInert_of_isBlank (hb c hc))
    (isProper_after_plain 0 _) hne h

theorem isClosed_trim_iff : IsClosed (Text.trim s) ↔ IsClosed s := by
  refine ⟨fun h => ?_, IsClosed.trim⟩
  obtain ⟨a, b, ha, hb, hs⟩ := Text.exists_eq_trim s
  rw [hs]
  exact (isClosed_of_allBlank ha).append (h.append (isClosed_of_allBlank hb))

/-! ## Parts of two texts -/

theorem Scan.separates_iff :
    st.separates sep c = true ↔ st = .plain 0 ∧ c = sep ∧ isInert c = true := by
  simp only [Scan.separates, isInert, Bool.and_eq_true, beq_iff_eq, and_assoc]

/-- A separator leaves one where one is. -/
theorem Scan.step_of_separates (h : st.separates sep c = true) : st.step c = st := by
  obtain ⟨rfl, -, hc⟩ := Scan.separates_iff.mp h
  exact Scan.step_plain_of_isInert hc 0

theorem splitFrom_of_separates (h : st.separates sep c = true) :
    splitFrom sep st (c :: s) = [] :: splitFrom sep st s := by
  rw [splitFrom, if_pos h]

theorem splitFrom_of_not_separates (h : st.separates sep c = false)
    (hs : splitFrom sep (st.step c) s = p :: ps) :
    splitFrom sep st (c :: s) = (c :: p) :: ps := by
  rw [splitFrom, if_neg (by simp [h]), hs]

theorem exists_splitFrom_eq_cons (sep : Char) (st : Scan) (s : List Char) :
    ∃ p ps, splitFrom sep st s = p :: ps :=
  List.exists_cons_of_ne_nil (splitFrom_ne_nil sep st s)

/-- Two rows of parts, the last part of the one going on in the first of the other. -/
def glue : List (List Char) → List (List Char) → List (List Char)
  | [], qs => qs
  | [p], [] => [p]
  | [p], q :: qs => (p ++ q) :: qs
  | p :: q :: ps, qs => p :: glue (q :: ps) qs

theorem glue_cons_cons : glue ((c :: p) :: ps) (t :: qs) =
    (c :: (glue (p :: ps) (t :: qs)).headD []) :: (glue (p :: ps) (t :: qs)).tail := by
  cases ps <;> rfl

theorem glue_nil_cons (hps : ps ≠ []) : glue ([] :: ps) qs = [] :: glue ps qs := by
  cases ps with
  | nil => exact absurd rfl hps
  | cons p ps => rfl

/-- Where the second row starts with nothing, the rows stand side by side. -/
theorem glue_empty_cons (hps : ps ≠ []) : glue ps ([] :: qs) = ps ++ qs := by
  induction ps with
  | nil => exact absurd rfl hps
  | cons p ps ih =>
    cases ps with
    | nil => simp [glue]
    | cons q ps =>
      rw [glue, ih (List.cons_ne_nil _ _)]
      rfl

/-- The last part of the first row goes on in the first one of the second. -/
theorem glue_concat_cons (ps : List (List Char)) (p q : List Char) (qs : List (List Char)) :
    glue (ps ++ [p]) (q :: qs) = ps ++ (p ++ q) :: qs := by
  induction ps with
  | nil => rfl
  | cons r ps ih =>
    obtain ⟨r', rs, hr⟩ : ∃ r' rs, ps ++ [p] = r' :: rs := List.exists_cons_of_ne_nil (by simp)
    rw [List.cons_append, hr, glue, ← hr, ih, List.cons_append]

theorem glue_concat_singleton (ps : List (List Char)) (p t : List Char) :
    glue (ps ++ [p]) [t] = ps ++ [p ++ t] := glue_concat_cons ps p t []

/-- What goes on in blanks is the same when it is trimmed. -/
theorem map_trim_glue_blank (ht : AllBlank t) (hps : ps ≠ []) :
    (glue ps [t]).map Text.trim = ps.map Text.trim := by
  induction ps with
  | nil => exact absurd rfl hps
  | cons p ps ih =>
    cases ps with
    | nil => rw [glue, List.map_singleton, List.map_singleton, Text.trim_append_right ht]
    | cons q ps => rw [glue, List.map_cons, List.map_cons, ih (List.cons_ne_nil _ _)]

/-- **The parts of two texts one after the other.** -/
theorem splitFrom_append (sep : Char) (st : Scan) (s t : List Char) :
    splitFrom sep st (s ++ t) = glue (splitFrom sep st s) (splitFrom sep (st.after s) t) := by
  obtain ⟨q, qs, ht⟩ := exists_splitFrom_eq_cons sep (st.after s) t
  induction s generalizing st with
  | nil =>
    rw [Scan.after_nil] at ht
    rw [List.nil_append, Scan.after_nil, ht]
    rfl
  | cons c s ih =>
    rw [List.cons_append]
    -- At a separator the scan goes on as it was, so both texts are cut there.
    cases hsep : st.separates sep c with
    | true =>
      have hst := Scan.step_of_separates hsep
      rw [Scan.after_cons, hst] at ht ⊢
      rw [splitFrom_of_separates hsep, splitFrom_of_separates hsep, ih st ht,
        glue_nil_cons (splitFrom_ne_nil _ _ _)]
    | false =>
      obtain ⟨p, ps, hs⟩ := exists_splitFrom_eq_cons sep (st.step c) s
      rw [Scan.after_cons] at ht ⊢
      have hst := ih (st.step c) ht
      obtain ⟨p', ps', hst'⟩ := exists_splitFrom_eq_cons sep (st.step c) (s ++ t)
      rw [splitFrom_of_not_separates hsep hst', splitFrom_of_not_separates hsep hs, ht,
        glue_cons_cons, ← hs, ← ht, ← hst, hst']
      rfl

/-- Every character is a separator or one of a part. -/
theorem eq_or_exists_of_mem (sep : Char) (st : Scan) (hc : c ∈ s) :
    c = sep ∨ ∃ p ∈ splitFrom sep st s, c ∈ p := by
  induction s generalizing st with
  | nil => cases hc
  | cons d s ih =>
    obtain ⟨p, ps, hs⟩ := exists_splitFrom_eq_cons sep (st.step d) s
    cases hsep : st.separates sep d with
    | true =>
      rw [splitFrom_of_separates hsep]
      rcases List.mem_cons.mp hc with rfl | hc
      · exact .inl (Scan.separates_iff.mp hsep).2.1
      · obtain h | ⟨q, hq, hmem⟩ := ih st hc
        · exact .inl h
        · exact .inr ⟨q, List.mem_cons_of_mem _ hq, hmem⟩
    | false =>
      rw [splitFrom_of_not_separates hsep hs]
      rcases List.mem_cons.mp hc with rfl | hc
      · exact .inr ⟨_, List.mem_cons_self, List.mem_cons_self⟩
      · obtain h | ⟨q, hq, hmem⟩ := ih (st.step d) hc
        · exact .inl h
        · rw [hs] at hq
          rcases List.mem_cons.mp hq with rfl | hq
          · exact .inr ⟨_, List.mem_cons_self, List.mem_cons_of_mem _ hmem⟩
          · exact .inr ⟨q, List.mem_cons_of_mem _ hq, hmem⟩

/-- Behind a closed text a separator separates. -/
theorem splitTopLevel_append_cons (hs : IsClosed s) (hsep : isInert sep = true) :
    splitTopLevel sep (s ++ sep :: t) = splitTopLevel sep s ++ splitTopLevel sep t := by
  rw [splitTopLevel, splitFrom_append, hs,
    splitFrom_of_separates (Scan.separates_iff.mpr ⟨rfl, rfl, hsep⟩),
    glue_empty_cons (splitFrom_ne_nil _ _ _)]
  rfl

/-! ## Parts without a separator -/

/-- The text has no separator from a place on: it is its only part. -/
def IsPart (sep : Char) (st : Scan) (s : List Char) : Prop := splitFrom sep st s = [s]

theorem isPart_nil : IsPart sep st [] := rfl

theorem isPart_cons :
    IsPart sep st (c :: s) ↔ st.separates sep c = false ∧ IsPart sep (st.step c) s := by
  obtain ⟨p, ps, hs⟩ := exists_splitFrom_eq_cons sep (st.step c) s
  rw [IsPart, IsPart, hs]
  cases hsep : st.separates sep c with
  | true => simp [splitFrom_of_separates hsep]
  | false => simp [splitFrom_of_not_separates hsep hs]

theorem isPart_append :
    IsPart sep st (s ++ t) ↔ IsPart sep st s ∧ IsPart sep (st.after s) t := by
  induction s generalizing st with
  | nil => simp [isPart_nil]
  | cons c s ih =>
    rw [List.cons_append, isPart_cons, isPart_cons, ih, Scan.after_cons, and_assoc]

/-- A text has no separator of its own just if none stands where brackets and quotes are closed. -/
theorem isPart_iff (hsep : isInert sep = true) :
    IsPart sep st s ↔ ∀ a b, s = a ++ sep :: b → st.after a ≠ .plain 0 := by
  constructor
  · rintro h a b rfl hclosed
    have hcut := (isPart_cons.mp (isPart_append.mp h).2).1
    rw [hclosed, Scan.separates_iff.mpr ⟨rfl, rfl, hsep⟩] at hcut
    cases hcut
  · intro h
    induction s generalizing st with
    | nil => exact isPart_nil
    | cons c s ih =>
      refine isPart_cons.mpr ⟨?_, ih fun a b hs => h (c :: a) b (by rw [hs]; rfl)⟩
      rw [← Bool.not_eq_true, Scan.separates_iff]
      rintro ⟨hst, rfl, -⟩
      exact h [] s rfl hst

/-- Inside of brackets or quotes nothing separates as long as they are not closed. -/
theorem isPart_of_isInert (h : ∀ c ∈ s, isInert c = true) (hp : st.IsProper)
    (hst : st ≠ .plain 0) : IsPart sep st s := by
  induction s generalizing st with
  | nil => exact isPart_nil
  | cons c s ih =>
    have hc := h c List.mem_cons_self
    refine isPart_cons.mpr ⟨?_, ih (fun x hx => h x (List.mem_cons_of_mem _ hx)) (hp.step c)
      (Scan.step_ne_plain_of_isInert hc hp hst)⟩
    rw [← Bool.not_eq_true, Scan.separates_iff]
    exact fun hsep => hst hsep.1

/-- A part of a text has no separator, and all but the last are closed. -/
theorem splitFrom_eq_cons (h : splitFrom sep st s = p :: ps) :
    IsPart sep st p ∧ (∀ q ∈ ps, IsPart sep (.plain 0) q) ∧
      (ps ≠ [] → st.after p = .plain 0) ∧ ∀ q ∈ ps.dropLast, IsClosed q := by
  induction s generalizing st p ps with
  | nil =>
    obtain ⟨rfl, rfl⟩ := List.cons.inj h
    simp [isPart_nil]
  | cons c s ih =>
    obtain ⟨p', ps', hs⟩ := exists_splitFrom_eq_cons sep (st.step c) s
    obtain ⟨hp', hps', hlast, hclosed⟩ := ih hs
    cases hsep : st.separates sep c with
    | true =>
      -- the part is empty, and the parts behind it are those of what is left
      obtain rfl := (Scan.separates_iff.mp hsep).1
      rw [Scan.step_of_separates hsep] at hs hp' hlast
      rw [splitFrom_of_separates hsep, hs] at h
      obtain ⟨rfl, rfl⟩ := List.cons.inj h
      refine ⟨isPart_nil, List.forall_mem_cons.mpr ⟨hp', hps'⟩, fun _ => rfl, fun q hq => ?_⟩
      cases ps' with
      | nil => cases hq
      | cons q' ps' =>
        rcases List.mem_cons.mp hq with rfl | hq
        · exact hlast (List.cons_ne_nil _ _)
        · exact hclosed q hq
    | false =>
      rw [splitFrom_of_not_separates hsep hs] at h
      obtain ⟨rfl, rfl⟩ := List.cons.inj h
      exact ⟨isPart_cons.mpr ⟨hsep, hp'⟩, hps', hlast, hclosed⟩

/-- The last part of a text leaves off where the text does. -/
theorem after_of_splitFrom_eq_concat (h : splitFrom sep st s = ps ++ [p]) :
    (if ps = [] then st else .plain 0).after p = st.after s := by
  induction s generalizing st ps p with
  | nil =>
    obtain ⟨rfl, hp⟩ := List.append_eq_singleton_iff.mp h.symm |>.resolve_right (by simp)
    obtain rfl := List.singleton_inj.mp hp
    rfl
  | cons c s ih =>
    cases hsep : st.separates sep c with
    | true =>
      -- the first part is empty, so the last one is the last of those of what is left
      obtain rfl := (Scan.separates_iff.mp hsep).1
      rw [splitFrom_of_separates hsep] at h
      rw [Scan.after_cons, Scan.step_of_separates hsep]
      cases ps with
      | nil => exact absurd (List.cons.inj h).2 (splitFrom_ne_nil _ _ _)
      | cons q ps => simpa using ih (List.cons.inj h).2
    | false =>
      obtain ⟨q, qs, hs⟩ := exists_splitFrom_eq_cons sep (st.step c) s
      rw [splitFrom_of_not_separates hsep hs] at h
      cases ps with
      | nil =>
        obtain ⟨rfl, rfl⟩ := List.cons.inj h
        have hs' : splitFrom sep (st.step c) s = [] ++ [q] := hs
        exact ih hs'
      | cons q' ps =>
        obtain ⟨rfl, rfl⟩ := List.cons.inj h
        have hs' : splitFrom sep (st.step c) s = (q :: ps) ++ [p] := hs
        exact ih hs'

theorem isPart_of_mem_splitTopLevel (h : p ∈ splitTopLevel sep s) : IsPart sep (.plain 0) p := by
  obtain ⟨q, qs, hs⟩ := exists_splitFrom_eq_cons sep (.plain 0) s
  obtain ⟨hq, hqs, -, -⟩ := splitFrom_eq_cons hs
  rw [splitTopLevel, hs] at h
  exact (List.mem_cons.mp h).elim (· ▸ hq) (hqs p)

theorem isClosed_of_mem_dropLast_splitTopLevel (h : p ∈ (splitTopLevel sep s).dropLast) :
    IsClosed p := by
  obtain ⟨q, qs, hs⟩ := exists_splitFrom_eq_cons sep (.plain 0) s
  obtain ⟨-, -, hlast, hclosed⟩ := splitFrom_eq_cons hs
  rw [splitTopLevel, hs] at h
  cases qs with
  | nil => cases h
  | cons q' qs =>
    rcases List.mem_cons.mp h with rfl | h
    · exact hlast (List.cons_ne_nil _ _)
    · exact hclosed p h

/-- A part stays one when it is trimmed. -/
theorem IsPart.trim (h : IsPart sep (.plain 0) s) : IsPart sep (.plain 0) (Text.trim s) := by
  obtain ⟨a, b, ha, -, hs⟩ := Text.exists_eq_trim s
  rw [hs, isPart_append, isClosed_of_allBlank ha, isPart_append] at h
  exact h.2.1

end PayloadTypes.TypeText
