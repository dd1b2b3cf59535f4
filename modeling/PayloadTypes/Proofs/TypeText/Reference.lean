import PayloadTypes.Proofs.Text.Ascii
import PayloadTypes.Proofs.Text.Word
import PayloadTypes.Proofs.TypeText.Scan
import PayloadTypes.Text.Digit
import PayloadTypes.TypeText.Reference
/-!
# Identifiers and references

An identifier stands outside of the quoted texts of a type. The references of a
type are the capitalised ASCII words that stand apart once its quoted texts are
taken out (`mem_references_iff`). An identifier without a quote beside it does
(`IsIdentifierIn.standsApart`), so it is a reference if it is such a word.
-/

namespace PayloadTypes.TypeText

open Text (isIdentChar isWord)

variable {c : Char} {st : Scan} {a b s t w x : List Char}

/-! ## Texts without their quoted texts -/

theorem withoutQuotedFrom_append (st : Scan) (s t : List Char) :
    withoutQuotedFrom st (s ++ t) =
      withoutQuotedFrom st s ++ withoutQuotedFrom (st.after s) t := by
  induction s generalizing st with
  | nil => rfl
  | cons c s ih =>
    rw [List.cons_append, withoutQuotedFrom, withoutQuotedFrom, ih, Scan.after_cons]
    split <;> rfl

theorem withoutQuotedFrom_plain_cons (hc : isQuote c = false) (d : ℕ) (s : List Char) :
    withoutQuotedFrom (.plain d) (c :: s) =
      c :: withoutQuotedFrom ((Scan.plain d).step c) s := by
  rw [withoutQuotedFrom, if_pos (by simp [Scan.isPlain, hc])]

theorem withoutQuotedFrom_of_isInert (h : ∀ c ∈ s, isInert c = true) (d : ℕ) :
    withoutQuotedFrom (.plain d) s = s := by
  induction s with
  | nil => rfl
  | cons c s ih =>
    have hc := h c List.mem_cons_self
    have hquote : isQuote c = false := by
      simp only [isInert, Bool.and_eq_true, Bool.not_eq_true'] at hc
      exact hc.1.1
    rw [withoutQuotedFrom_plain_cons hquote, Scan.step_plain_of_isInert hc,
      ih fun x hx => h x (List.mem_cons_of_mem _ hx)]

/-- Only a quote leads out of a quoted text. -/
theorem Scan.isPlain_of_isPlain_step (hp : st.IsProper) (hc : isQuote c = false)
    (h : (st.step c).isPlain = true) : st.isPlain = true := by
  cases st with
  | plain d => rfl
  | quoted d q e =>
    have hne : c ≠ q := by
      rintro rfl
      rw [show isQuote c = true from hp] at hc
      cases hc
    cases e with
    | true => exact h
    | false =>
      simp only [Scan.step, if_neg hne] at h
      split at h <;> exact h

/-! ## Identifiers -/

/-- A character that an identifier may hold. -/
def isIdentifierChar (c : Char) : Bool := isWord c || c == '$'

/-- An identifier stands behind `a` and in front of `b`, outside of quoted texts. -/
structure IsIdentifierIn (a x b : List Char) : Prop where
  /-- No quoted text is open. -/
  plain : ((Scan.plain 0).after a).isPlain = true
  /-- It is not empty. -/
  ne_nil : x ≠ []
  /-- It does not start with a digit. -/
  start : ∀ c ∈ x.head?, Text.isDigit c = false
  /-- It holds characters of identifiers. -/
  chars : ∀ c ∈ x, isIdentifierChar c = true
  /-- It does not start earlier. -/
  front : ∀ c ∈ a.getLast?, isIdentifierChar c = false
  /-- It does not go on. -/
  back : ∀ c ∈ b.head?, isIdentifierChar c = false

theorem isInert_of_isIdentifierChar (h : isIdentifierChar c = true) : isInert c = true :=
  isInert_of_forall_marks (by decide) h

theorem isWord_eq_false (h : isIdentifierChar c = false) : isWord c = false :=
  (Bool.or_eq_false_iff.mp h).1

/-- The word stands in the text without its quoted texts and is not part of a longer one. -/
def StandsApart (x s : List Char) : Prop :=
  ∃ a b, withoutQuoted s = a ++ (x ++ b) ∧ (∀ c ∈ a.getLast?, isWord c = false) ∧
    ∀ c ∈ b.head?, isWord c = false

/-- What is kept of a text ends as the text does, unless that is a quote. -/
theorem getLast?_withoutQuoted (hplain : ((Scan.plain 0).after a).isPlain = true)
    (hquote : ∀ c ∈ a.getLast?, isQuote c = false) :
    (withoutQuoted a).getLast? = a.getLast? := by
  rcases List.eq_nil_or_concat a with rfl | ⟨a, c, rfl⟩
  · rfl
  · have hc : isQuote c = false := hquote c (by simp)
    rw [List.concat_eq_append] at hplain ⊢
    rw [Scan.after_append] at hplain
    have hbefore := Scan.isPlain_of_isPlain_step (isProper_after_plain 0 a) hc hplain
    rw [withoutQuoted, withoutQuotedFrom_append, withoutQuotedFrom, if_pos (by simp [hbefore, hc])]
    simp [withoutQuotedFrom]

/-- **An identifier without a quote beside it stands apart.** -/
theorem IsIdentifierIn.standsApart (h : IsIdentifierIn a x b)
    (ha : ∀ c ∈ a.getLast?, isQuote c = false) (hb : ∀ c ∈ b.head?, isQuote c = false) :
    StandsApart x (a ++ (x ++ b)) := by
  obtain ⟨d, hd⟩ : ∃ d, (Scan.plain 0).after a = .plain d := by
    have hplain := h.plain
    cases hst : (Scan.plain 0).after a with
    | plain d => exact ⟨d, rfl⟩
    | quoted d q e =>
      rw [hst] at hplain
      cases hplain
  have hinert : ∀ c ∈ x, isInert c = true := fun c hc => isInert_of_isIdentifierChar (h.chars c hc)
  -- What stands behind the identifier ends the word even when quoted parts are left out.
  have hback : ∀ c ∈ (withoutQuotedFrom (.plain d) b).head?, isWord c = false := by
    cases b with
    | nil => simp [withoutQuotedFrom]
    | cons e b =>
      rw [withoutQuotedFrom_plain_cons (hb e rfl)]
      rintro c ⟨⟩
      exact isWord_eq_false (h.back e rfl)
  refine ⟨withoutQuoted a, withoutQuotedFrom (.plain d) b, ?_, fun c hc => ?_, hback⟩
  · rw [withoutQuoted, withoutQuotedFrom_append, hd, withoutQuotedFrom_append,
      withoutQuotedFrom_of_isInert hinert, Scan.after_plain_of_isInert hinert, withoutQuoted]
  · rw [getLast?_withoutQuoted h.plain ha] at hc
    exact isWord_eq_false (h.front c hc)

/-! ## References -/

theorem isTypeName_iff : isTypeName w = true ↔
    (∀ c ∈ w, isIdentChar c = true) ∧ ∃ c ∈ w.head?, c.isUpper = true := by
  rw [isTypeName, Bool.and_eq_true, List.all_eq_true]
  refine and_congr_right fun _ => ?_
  cases w <;> simp

theorem mem_words_iff (h : isTypeName w = true) :
    w ∈ Text.words (withoutQuoted s) ↔ StandsApart w s := by
  obtain ⟨hchars, c, hc, -⟩ := isTypeName_iff.mp h
  have hne : w ≠ [] := by
    rintro rfl
    cases hc
  rw [Text.words, Text.mem_runs_iff, StandsApart]
  have hword : ∀ d ∈ w, isWord d = true := fun d hd => Text.isWord_of_isIdentChar (hchars d hd)
  exact ⟨fun hw => hw.2.2, fun hw => ⟨hne, hword, hw⟩⟩

/-- **What a type refers to**: capitalised ASCII words that stand apart and need a declaration. -/
theorem mem_references_iff {n t : String} : n ∈ references t ↔
    isTypeName n.toList = true ∧ n ∉ builtinNames ∧ StandsApart n.toList t.toList := by
  have hword : n ∈ ((Text.words (withoutQuoted t.toList)).filter isTypeName).map String.ofList ↔
      isTypeName n.toList = true ∧ n.toList ∈ Text.words (withoutQuoted t.toList) := by
    rw [List.mem_map]
    constructor
    · rintro ⟨w, hw, rfl⟩
      rw [String.toList_ofList]
      exact (List.mem_filter.mp hw).symm
    · rintro ⟨hname, hw⟩
      exact ⟨n.toList, List.mem_filter.mpr ⟨hw, hname⟩, String.ofList_toList⟩
  rw [references, List.mem_eraseDups, List.mem_filter, hword]
  constructor
  · rintro ⟨⟨hname, hw⟩, hbuiltin⟩
    exact ⟨hname, by simpa using hbuiltin, (mem_words_iff hname).mp hw⟩
  · rintro ⟨hname, hbuiltin, hapart⟩
    exact ⟨⟨hname, (mem_words_iff hname).mpr hapart⟩, by simpa using hbuiltin⟩

end PayloadTypes.TypeText
