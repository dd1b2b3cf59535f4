import PayloadTypes.Proofs.Text.Escape
import PayloadTypes.Proofs.Text.Word
import PayloadTypes.Proofs.TypeText.Members
import PayloadTypes.TypeText.ArrayType
import PayloadTypes.TypeText.Literal
import PayloadTypes.TypeText.Reference
/-!
# Words that leave a type open

A type is vague when one of two words stands in its text, wherever that is
(`isVague_iff`). Quotes, bars and brackets part words, so the words of a literal
are those of its text, the words of a union those of its members, and an array
adds its own name only. A type is definite when the two words stand in its
literals at most; such a type may still be a vague one.
-/

namespace PayloadTypes.TypeText

open Text (isWord runs words)

variable {w s : List Char} {i : ℕ} {t : String}

/-! ## Where a word stands -/

/-- The words that leave a type open. -/
def openWords : List (List Char) := ["unknown".toList, "any".toList]

/-- The word stands at a place of the text, with no character of a word beside it. -/
structure StandsAt (w s : List Char) (i : ℕ) : Prop where
  /-- It starts there. -/
  found : w <+: s.drop i
  /-- It does not start earlier. -/
  front : ∀ c ∈ (s.take i).getLast?, isWord c = false
  /-- It does not go on. -/
  back : ∀ c ∈ (s.drop (i + w.length)).head?, isWord c = false

instance : Decidable (StandsAt w s i) :=
  decidable_of_iff (w <+: s.drop i ∧ (s.take i).getLast?.all (!isWord ·) = true ∧
      (s.drop (i + w.length)).head?.all (!isWord ·) = true) <| by
    simp only [Option.all_eq_true, Bool.not_eq_true']
    exact ⟨fun h => ⟨h.1, h.2.1, h.2.2⟩, fun h => ⟨h.found, h.front, h.back⟩⟩

/-- **The words of a text** are those that stand at some place of it. -/
theorem mem_words_iff_standsAt (hne : w ≠ []) (hw : ∀ c ∈ w, isWord c = true) :
    w ∈ words s ↔ ∃ i, StandsAt w s i := by
  rw [words, Text.mem_runs_iff]
  constructor
  · rintro ⟨-, -, a, b, rfl, ha, hb⟩
    exact ⟨a.length, by simp, by simpa using ha, by simpa [List.drop_append] using hb⟩
  · rintro ⟨i, ⟨b, hb⟩, hfront, hback⟩
    have hrest : s.drop (i + w.length) = b := by
      rw [← List.drop_drop, ← hb, List.drop_left]
    refine ⟨hne, hw, s.take i, b, ?_, hfront, hrest ▸ hback⟩
    rw [hb, List.take_append_drop]

/-- One of the words that leave a type open stands in the text. -/
def MentionsOpenWord (t : String) : Prop := ∃ w ∈ openWords, ∃ i, StandsAt w t.toList i

/-- The place is inside of a quoted text. -/
def IsQuotedAt (s : List Char) (i : ℕ) : Prop := ((Scan.plain 0).after (s.take i)).isPlain = false

instance : Decidable (IsQuotedAt s i) := inferInstanceAs (Decidable (_ = false))

/-- The words that leave a type open stand in quoted texts only, or nowhere. -/
def IsDefinite (t : String) : Prop :=
  ∀ w ∈ openWords, ∀ i < t.toList.length, StandsAt w t.toList i → IsQuotedAt t.toList i

instance (t : String) : Decidable (IsDefinite t) :=
  inferInstanceAs (Decidable (∀ w ∈ openWords, ∀ i < t.toList.length, _ → _))

theorem openWords_words : ∀ w ∈ openWords, w ≠ [] ∧ ∀ c ∈ w, isWord c = true := by
  simp only [← List.all_eq_true]
  decide

theorem mentionsOpenWord_iff : MentionsOpenWord t ↔ ∃ w ∈ openWords, w ∈ words t.toList := by
  refine exists_congr fun w => and_congr_right fun hw => ?_
  obtain ⟨hne, hword⟩ := openWords_words w hw
  exact (mem_words_iff_standsAt hne hword).symm

/-- **A type is vague when it mentions an open word**, in a literal or not. -/
theorem isVague_iff (hne : t ≠ "") : isVague (some t) = true ↔ MentionsOpenWord t := by
  have hempty : t.isEmpty = false := by simpa using hne
  rw [mentionsOpenWord_iff, isVague, hempty, Bool.false_or, List.any_eq_true]
  constructor
  · rintro ⟨w, hmem, hw⟩
    exact ⟨w, by simpa [openWords] using hw, hmem⟩
  · rintro ⟨w, hw, hmem⟩
    exact ⟨w, hmem, by simpa [openWords] using hw⟩

/-! ## Words of literals, unions and arrays -/

theorem runs_escapeWith {p : Char → Bool} (hb : p '\\' = false) (hq : p '\'' = false)
    (s : List Char) : runs p (Text.escapeWith '\\' '\'' s) = runs p s := by
  induction s with
  | nil => rfl
  | cons c s ih =>
    by_cases hc : c = '\''
    · subst hc
      rw [Text.escapeWith_cons_self, Text.runs_cons_of_neg hb, Text.runs_cons_of_neg hq,
        Text.runs_cons_of_neg hq, ih]
    · rw [Text.escapeWith_cons_of_ne hc]
      -- a backslash in front of the next quote ends a run just as the quote does
      refine Text.runs_cons_congr ih ?_ c
      cases s with
      | nil => rfl
      | cons d s =>
        by_cases hd : d = '\''
        · rw [hd, Text.escapeWith_cons_self, List.head?_cons, List.head?_cons, Option.any_some,
            Option.any_some, hb, hq]
        · rw [Text.escapeWith_cons_of_ne hd, List.head?_cons, List.head?_cons]

/-- A literal has the words of its text. -/
theorem words_quoteLiteral (v : String) : words (quoteLiteral v).toList = words v.toList := by
  rw [quoteLiteral, String.toList_ofList, words, List.cons_append,
    Text.runs_cons_of_neg (by decide), Text.runs_concat_of_neg (by decide),
    runs_escapeWith (by decide) (by decide), words]

/-- An array has the words of its items and its own name. -/
theorem words_arrayOf (t : String) :
    words (arrayOf t).toList = "Array".toList :: words t.toList := by
  have htext : (arrayOf t).toList = "Array".toList ++ '<' :: (t.toList ++ ['>']) := by
    simp [arrayOf]
  have harray : runs isWord "Array".toList = ["Array".toList] := by decide
  rw [htext, words, Text.runs_append_cons (by decide), Text.runs_concat_of_neg (by decide), harray,
    List.singleton_append, words]

/-- Between bars words are parted. -/
theorem words_intercalate (ps : List (List Char)) :
    words ([' ', '|', ' '].intercalate ps) = ps.flatMap words := by
  induction ps with
  | nil => rfl
  | cons p ps ih =>
    cases ps with
    | nil => simp
    | cons q ps =>
      rw [List.intercalate_cons_cons, List.flatMap_cons, ← ih, List.append_assoc]
      change runs isWord (p ++ ' ' :: '|' :: ' ' :: _) = _
      rw [Text.runs_append_cons (by decide), Text.runs_cons_of_neg (by decide),
        Text.runs_cons_of_neg (by decide)]
      rfl

/-- A union has the words of its members. -/
theorem mem_words_union {ms : List String} :
    w ∈ words (union ms).toList ↔ ∃ m ∈ ms, w ∈ words m.toList := by
  rw [union, String.toList_intercalate]
  change w ∈ words ([' ', '|', ' '].intercalate _) ↔ _
  rw [words_intercalate]
  simp [List.mem_flatMap, List.mem_eraseDups]

end PayloadTypes.TypeText
