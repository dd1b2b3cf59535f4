import Mathlib.Data.List.Forall2
import PayloadTypes.Proofs.Text.Ascii
import PayloadTypes.Proofs.TypeText.Members
/-!
# Types in lower case

Lower case changes letters alone: what cuts, brackets, quotes, escapes or is
blank stays what it is, and nothing else becomes such a character. So a type in
lower case has the members of the type, each in lower case, and null is among
them just if one member spells it (`null_mem_members_lower_iff`).
-/

namespace PayloadTypes.TypeText

open Text (AllBlank IsTrimmed LowerRun blankRanges isBlank lower lowerAfter lowerChar lowerRuns)

variable {c : Char} {st : Scan} {s s' t t' w p q : List Char} {a b n : ℕ}

/-! ## Characters that reading a type passes over -/

/-- A character that reading a type passes over: it is neither a mark nor blank, a bar or a
backslash. -/
def isPlainChar (c : Char) : Bool := isInert c && !isBlank c && c != '|' && c != '\\'

/-- The code points that are those of letters or above ASCII. -/
def isLetterCode (n : ℕ) : Bool := 65 ≤ n && n ≤ 90 || 97 ≤ n && n ≤ 122 || 128 ≤ n

theorem isPlainChar_of_isLetterCode (h : isLetterCode c.toNat = true) (hb : isBlank c = false) :
    isPlainChar c = true := by
  have hinert : isInert c = true := isInert_of_forall_marks (p := fun x => isLetterCode x.toNat)
    (by decide) h
  have hbar : c ≠ '|' := by rintro rfl; exact absurd h (by decide)
  have hback : c ≠ '\\' := by rintro rfl; exact absurd h (by decide)
  simp [isPlainChar, hinert, hb, hbar, hback]

/-- The range has letters or code points above ASCII only, all of them of characters that are not
blank. -/
def isPlainRange (a b : ℕ) : Bool :=
  (97 ≤ a && b ≤ 122 || 128 ≤ a) && (b < 0xD800 || 0xE000 ≤ a && b < 0x110000) &&
    blankRanges.all fun r => b < r.1 || r.2 < a

theorem isPlainChar_ofNat (h : isPlainRange a b = true) (ha : a ≤ n) (hb : n ≤ b) :
    isPlainChar (Char.ofNat n) = true := by
  simp only [isPlainRange, Bool.and_eq_true, Bool.or_eq_true, decide_eq_true_eq] at h
  obtain ⟨⟨hletter, hvalid⟩, hblank⟩ := h
  -- The code is valid, so the character has it.
  have hn : (Char.ofNat n).toNat = n := by
    have : n.isValidChar := by
      rcases hvalid with h | h
      · exact .inl (by omega)
      · exact .inr ⟨by omega, by omega⟩
    rw [Char.ofNat, dif_pos this]
    rfl
  refine isPlainChar_of_isLetterCode ?_ ?_
  · rw [hn]
    simp only [isLetterCode, Bool.or_eq_true, Bool.and_eq_true, decide_eq_true_eq]
    omega
  · rw [isBlank, hn, Text.inRanges, ← Bool.not_eq_true, List.any_eq_true]
    rintro ⟨r, hr, hin⟩
    have := List.all_eq_true.mp hblank r hr
    simp only [Bool.and_eq_true, Bool.or_eq_true, decide_eq_true_eq] at this hin
    omega

/-- The upper case letters of the table and their forms are such ranges. -/
theorem lowerRuns_plain : (lowerRuns.all fun r => isPlainRange r.first r.last &&
    isPlainRange r.target (r.target + (r.last - r.first))) = true := by decide

/-- **Reading a type passes over a letter of the table** and over its form. -/
theorem isPlainChar_of_findSome? {m : Nat}
    (h : lowerRuns.findSome? (LowerRun.lower? · n) = some m) :
    isPlainChar (Char.ofNat n) = true ∧ isPlainChar (Char.ofNat m) = true := by
  obtain ⟨r, hr, hm⟩ := List.exists_of_findSome?_eq_some h
  have hplain := List.all_eq_true.mp lowerRuns_plain r hr
  rw [Bool.and_eq_true] at hplain
  unfold LowerRun.lower? at hm
  split at hm
  · next hin =>
    obtain rfl := Option.some.inj hm
    simp only [Bool.and_eq_true, decide_eq_true_eq] at hin
    obtain ⟨⟨hfirst, hlast⟩, -⟩ := hin
    exact ⟨isPlainChar_ofNat hplain.1 hfirst hlast,
      isPlainChar_ofNat hplain.2 (by omega) (by omega)⟩
  · cases hm

theorem upperCase_plain : ∀ n < 91, 65 ≤ n →
    isPlainChar (Char.ofNat n) = true ∧ isPlainChar (Char.ofNat n).toLower = true := by decide

/-! ## Forms of characters -/

/-- A form that a character takes in lower case, whatever stands around it. -/
inductive IsForm : Char → List Char → Prop
  /-- A character that is no sigma has one form. -/
  | char (c : Char) : c.toNat ≠ 0x3A3 → IsForm c (lowerChar c)
  /-- The capital sigma has two. -/
  | sigma (c : Char) {d : Char} : c.toNat = 0x3A3 → d = 'ς' ∨ d = 'σ' → IsForm c [d]

/-- **A form is the character itself, or reading a type passes over both.** -/
theorem IsForm.cases (h : IsForm c w) :
    w = [c] ∨ isPlainChar c = true ∧ w ≠ [] ∧ ∀ d ∈ w, isPlainChar d = true := by
  have hsingle {d : Char} (hc : isPlainChar c = true) (hd : isPlainChar d = true) :
      isPlainChar c = true ∧ [d] ≠ [] ∧ ∀ x ∈ [d], isPlainChar x = true :=
    ⟨hc, List.cons_ne_nil _ _, List.forall_mem_singleton.mpr hd⟩
  have hself : Char.ofNat c.toNat = c := Char.ofNat_toNat c
  cases h with
  -- A sigma, a letter of ASCII, the dotted capital and what a run of codes moves, as they are told
  -- apart.
  | sigma hsigma hd =>
    have hc : isPlainChar c = true := by
      rw [← hself, hsigma]
      decide
    rcases hd with rfl | rfl
    · exact .inr (hsingle hc (by decide))
    · exact .inr (hsingle hc (by decide))
  | char hsigma =>
    unfold lowerChar
    split
    · next hascii =>
      cases hupper : c.isUpper with
      | false => exact .inl (by rw [Text.toLower_eq_self hupper])
      | true =>
        have hcode := Text.isUpper_iff.mp hupper
        have hplain := upperCase_plain c.toNat (by omega) hcode.1
        rw [hself] at hplain
        exact .inr (hsingle hplain.1 hplain.2)
    · split
      · next hdotted =>
        refine .inr ⟨?_, List.cons_ne_nil _ _, List.all_eq_true.mp (by decide)⟩
        rw [← hself, hdotted]
        decide
      · split
        · next n hrun =>
          have hplain := isPlainChar_of_findSome? hrun
          rw [hself] at hplain
          exact .inr (hsingle hplain.1 hplain.2)
        · exact .inl rfl

/-- A text whose characters are replaced by forms of theirs. -/
inductive IsLowered : List Char → List Char → Prop
  /-- Nothing. -/
  | nil : IsLowered [] []
  /-- A form of the first character and what the others are replaced by. -/
  | cons {c : Char} {w s t : List Char} : IsForm c w → IsLowered s t → IsLowered (c :: s) (w ++ t)

theorem isLowered_lowerAfter (s : List Char) (cased : Bool) :
    IsLowered s (lowerAfter cased s) := by
  induction s generalizing cased with
  | nil => exact .nil
  | cons c s ih =>
    rw [lowerAfter]
    refine .cons ?_ (ih _)
    split
    · next hsigma =>
      refine .sigma c hsigma ?_
      split
      · exact .inl rfl
      · exact .inr rfl
    · next hsigma => exact .char c hsigma

theorem isLowered_lower (s : List Char) : IsLowered s (lower s) := isLowered_lowerAfter s false

/-- Without a sigma there is one text in lower case. -/
theorem IsLowered.eq (h : IsLowered s t) (h' : IsLowered s t')
    (hsigma : 'ς' ∉ t ∧ 'σ' ∉ t) : t = t' := by
  induction h generalizing t' with
  | nil =>
    cases h'
    rfl
  | @cons c w s t hform _ ih =>
    cases h' with
    | @cons _ w' _ t' hform' hst' =>
      have hforms : w = w' := by
        cases hform with
        | char hc =>
          cases hform' with
          | char => rfl
          | sigma hc' => exact absurd hc' hc
        | sigma _ hd =>
          rcases hd with rfl | rfl
          · exact absurd (List.mem_append_left _ List.mem_cons_self) hsigma.1
          · exact absurd (List.mem_append_left _ List.mem_cons_self) hsigma.2
      rw [hforms, ih hst' ⟨fun h => hsigma.1 (List.mem_append_right _ h),
        fun h => hsigma.2 (List.mem_append_right _ h)⟩]

/-! ## Lower case and parts -/

/-- Where one is after characters that are passed over: a backslash no longer counts. -/
def Scan.resume : Scan → Scan
  | .plain d => .plain d
  | .quoted d q _ => .quoted d q false

theorem Scan.step_of_isPlainChar (h : isPlainChar c = true) (hst : st.IsProper) :
    st.step c = st.resume := by
  simp only [isPlainChar, Bool.and_eq_true, bne_iff_ne] at h
  obtain ⟨⟨⟨hinert, -⟩, -⟩, hback⟩ := h
  cases st with
  | plain d => exact Scan.step_plain_of_isInert hinert d
  | quoted d q e =>
    have hq : c ≠ q := by
      rintro rfl
      simp only [Scan.IsProper] at hst
      simp [isInert, hst] at hinert
    cases e with
    | true => rfl
    | false => rw [Scan.step, if_neg hback, if_neg hq, Scan.resume]

theorem Scan.after_of_isPlainChar (hne : w ≠ []) (h : ∀ c ∈ w, isPlainChar c = true)
    (hst : st.IsProper) : st.after w = st.resume := by
  induction w generalizing st with
  | nil => exact absurd rfl hne
  | cons c w ih =>
    have hc := Scan.step_of_isPlainChar (h c List.mem_cons_self) hst
    rw [Scan.after_cons]
    cases w with
    | nil => exact hc
    | cons d w =>
      rw [ih (List.cons_ne_nil _ _) (fun x hx => h x (List.mem_cons_of_mem _ hx)) (hst.step c), hc]
      cases st <;> rfl

theorem ne_bar_of_isPlainChar (h : isPlainChar c = true) : c ≠ '|' := by
  simp only [isPlainChar, Bool.and_eq_true, bne_iff_ne] at h
  exact h.1.2

/-- **The parts between bars are put in lower case one by one.** -/
theorem forall₂_splitFrom (h : IsLowered s t) (hst : st.IsProper) :
    List.Forall₂ IsLowered (splitFrom '|' st s) (splitFrom '|' st t) := by
  induction h generalizing st with
  | nil => exact .cons .nil .nil
  | @cons c w s t hform hlow ih =>
    obtain ⟨p, ps, hp⟩ := exists_splitFrom_eq_cons '|' (st.step c) s
    obtain ⟨q, qs, hq⟩ := exists_splitFrom_eq_cons '|' (st.step c) t
    have htail := ih (hst.step c)
    rw [hp, hq] at htail
    cases htail with
    | cons hpq hrest =>
      rcases hform.cases with rfl | ⟨hc, hne, hw⟩
      · rw [List.singleton_append]
        cases hsep : st.separates '|' c with
        | true =>
          rw [splitFrom_of_separates hsep, splitFrom_of_separates hsep]
          exact .cons .nil (ih hst)
        | false =>
          rw [splitFrom_of_not_separates hsep hp, splitFrom_of_not_separates hsep hq]
          exact .cons (.cons hform hpq) hrest
      · -- a form of several characters is passed over like the character itself
        have hsep : st.separates '|' c = false := by
          rw [← Bool.not_eq_true, Scan.separates_iff]
          exact fun hbar => ne_bar_of_isPlainChar hc hbar.2.1
        have hpart : IsPart '|' st w :=
          isPart_of_not_mem fun hmem => ne_bar_of_isPlainChar (hw _ hmem) rfl
        have hafter : st.after w = st.step c := by
          rw [Scan.after_of_isPlainChar hne hw hst, Scan.step_of_isPlainChar hc hst]
        rw [splitFrom_of_not_separates hsep hp, splitFrom_append, hafter, hpart, hq]
        exact .cons (.cons hform hpq) hrest

/-! ## Lower case and trimming -/

theorem IsForm.isBlank_eq (h : IsForm c w) :
    w ≠ [] ∧ ∀ d ∈ w, isBlank d = isBlank c := by
  rcases h.cases with rfl | ⟨hc, hne, hw⟩
  · exact ⟨List.cons_ne_nil _ _, List.forall_mem_singleton.mpr rfl⟩
  · have hblank {x : Char} (hx : isPlainChar x = true) : isBlank x = false := by
      simp only [isPlainChar, Bool.and_eq_true, Bool.not_eq_true'] at hx
      exact hx.1.1.2
    exact ⟨hne, fun d hd => (hblank (hw d hd)).trans (hblank hc).symm⟩

/-- The pieces of a text are put in lower case one by one. -/
theorem IsLowered.exists_append (h : IsLowered (s ++ s') t) :
    ∃ u u', t = u ++ u' ∧ IsLowered s u ∧ IsLowered s' u' := by
  induction s generalizing t with
  | nil => exact ⟨[], t, rfl, .nil, h⟩
  | cons c s ih =>
    cases h with
    | @cons _ w _ t hform hst =>
      obtain ⟨u, u', rfl, hu, hu'⟩ := ih hst
      exact ⟨w ++ u, u', (List.append_assoc ..).symm, .cons hform hu, hu'⟩

theorem IsLowered.allBlank (h : IsLowered s t) (hs : AllBlank s) : AllBlank t := by
  induction h with
  | nil => exact hs
  | @cons c w s t hform _ ih =>
    refine List.forall_mem_append.mpr
      ⟨fun d hd => ?_, ih fun x hx => hs x (List.mem_cons_of_mem _ hx)⟩
    rw [hform.isBlank_eq.2 d hd, hs c List.mem_cons_self]

theorem IsLowered.eq_nil_iff (h : IsLowered s t) : s = [] ↔ t = [] := by
  cases h with
  | nil => exact Iff.rfl
  | cons hform _ => simp [hform.isBlank_eq.1]

theorem IsLowered.isTrimmed (h : IsLowered s t) (hs : IsTrimmed s) : IsTrimmed t := by
  constructor
  -- The first character of a form is blank just where that of the text is, and so is the last.
  · cases h with
    | nil => exact hs.1
    | @cons c w s t hform _ =>
      obtain ⟨d, w, rfl⟩ := List.exists_cons_of_ne_nil hform.isBlank_eq.1
      intro x hx
      cases hx
      rw [hform.isBlank_eq.2 d List.mem_cons_self]
      exact hs.1 c rfl
  · rcases List.eq_nil_or_concat' s with rfl | ⟨s, c, rfl⟩
    · obtain rfl := h.eq_nil_iff.mp rfl
      exact hs.2
    · obtain ⟨u, u', rfl, -, hu'⟩ := h.exists_append
      cases hu' with
      | @cons _ w _ t hform hnil =>
        cases hnil
        intro x hx
        rw [List.append_nil, List.getLast?_append_of_ne_nil _ hform.isBlank_eq.1] at hx
        rw [hform.isBlank_eq.2 x (List.mem_of_getLast? hx)]
        exact hs.2 c (by simp)

/-- **A trimmed text is put in lower case like the text.** -/
theorem IsLowered.trim (h : IsLowered s t) : IsLowered (Text.trim s) (Text.trim t) := by
  obtain ⟨a, b, ha, hb, hs⟩ := Text.exists_eq_trim s
  rw [hs] at h
  obtain ⟨u, u', rfl, hu, hu'⟩ := h.exists_append
  obtain ⟨v, v', rfl, hv, hv'⟩ := hu'.exists_append
  rwa [Text.trim_append_left (hu.allBlank ha), Text.trim_append_right (hv'.allBlank hb),
    (hv.isTrimmed (Text.isTrimmed_trim s)).trim_eq]

/-! ## Null -/

/-- A text spells null if it is null in lower case. -/
def SpellsNull (s : List Char) : Prop := lower s = null.toList

instance (s : List Char) : Decidable (SpellsNull s) :=
  inferInstanceAs (Decidable (lower s = null.toList))

theorem IsLowered.spellsNull_iff (h : IsLowered s t) : SpellsNull s ↔ t = null.toList := by
  constructor
  · intro hs
    have hnull : IsLowered s null.toList := hs ▸ isLowered_lower s
    exact (hnull.eq h (by decide)).symm
  · rintro rfl
    exact (h.eq (isLowered_lower s) (by decide)).symm

/-- The members are put in lower case one by one. -/
theorem forall₂_memberTexts (h : IsLowered s t) :
    List.Forall₂ IsLowered (memberTexts s) (memberTexts t) := by
  have hstart : (Scan.plain 0).IsProper := trivial
  have hparts : List.Forall₂ IsLowered (splitTopLevel '|' s) (splitTopLevel '|' t) :=
    forall₂_splitFrom h hstart
  refine List.rel_filter (fun p q hpq => ?_) ?_
  · simp [hpq.eq_nil_iff]
  · exact List.rel_map (fun p q hpq => hpq.trim) hparts

/-- **Null is a member in lower case** just if some member spells it. -/
theorem null_mem_members_lower_iff (t : String) :
    null ∈ members (String.ofList (lower t.toList)) ↔ ∃ m ∈ members t, SpellsNull m.toList := by
  have hlow := forall₂_memberTexts (isLowered_lower t.toList)
  rw [members_eq, members_eq, String.toList_ofList]
  generalize memberTexts t.toList = ps, memberTexts (lower t.toList) = qs at hlow
  induction hlow with
  | nil => simp
  | @cons p q ps qs hpq _ ih =>
    have hhead : null = String.ofList q ↔ SpellsNull p := by
      rw [hpq.spellsNull_iff, ← String.toList_inj, String.toList_ofList, eq_comm]
    rw [List.map_cons, List.mem_cons, List.map_cons, List.exists_mem_cons_iff,
      String.toList_ofList]
    exact or_congr hhead ih

end PayloadTypes.TypeText
