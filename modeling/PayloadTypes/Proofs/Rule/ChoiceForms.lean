import Mathlib.Data.List.Basic
import PayloadTypes.Proofs.Rule.ChoiceText
import PayloadTypes.Proofs.Text.Word
/-!
# The forms of a choice

A value of a choice may be written as it is, if it holds neither a comma nor a
quote, or in double quotes, where a backslash is doubled and a quote is doubled
or has a backslash in front of it. The forms mix freely in one list, with blanks
around every item, and the reader gives the values back
(`choiceValues_join_items`).
-/

namespace PayloadTypes.Rule

open Text (IsTrimmed AllBlank)

variable {c : Char} {v w s t rest current gap : List Char}
variable {values : List String} {items : List (List Char)}

/-! ## Forms -/

/-- The value `v` may be written as `w` between quotes. -/
inductive QuotedBody : (v w : List Char) → Prop
  /-- Nothing. -/
  | nil : QuotedBody [] []
  /-- A character in front that means nothing between quotes. -/
  | char {c : Char} {v w : List Char} (hb : c ≠ '\\') (hq : c ≠ '"') (h : QuotedBody v w) :
      QuotedBody (c :: v) (c :: w)
  /-- A backslash in front, escaped. -/
  | backslash {v w : List Char} (h : QuotedBody v w) : QuotedBody ('\\' :: v) ('\\' :: '\\' :: w)
  /-- A quote in front, doubled. -/
  | doubled {v w : List Char} (h : QuotedBody v w) : QuotedBody ('"' :: v) ('"' :: '"' :: w)
  /-- A quote in front, escaped. -/
  | escaped {v w : List Char} (h : QuotedBody v w) : QuotedBody ('"' :: v) ('\\' :: '"' :: w)

/-- The value `v` may be written as `w`. -/
inductive ChoiceForm (v : List Char) : List Char → Prop
  /-- As it is. -/
  | plain (hcomma : ',' ∉ v) (hquote : '"' ∉ v) : ChoiceForm v v
  /-- In quotes. -/
  | quoted {w : List Char} (h : QuotedBody v w) : ChoiceForm v ('"' :: (w ++ ['"']))

/-- The text is a form of the value `v` with blanks around it. -/
def IsChoiceItem (v t : List Char) : Prop :=
  ∃ a w b, AllBlank a ∧ ChoiceForm v w ∧ AllBlank b ∧ t = a ++ (w ++ b)

/-- A value without marks is written between quotes as it is. -/
theorem quotedBody_of_not_mem (hb : '\\' ∉ v) (hq : '"' ∉ v) : QuotedBody v v := by
  induction v with
  | nil => exact .nil
  | cons c v ih =>
    rw [List.mem_cons, not_or] at hb hq
    exact .char (Ne.symm hb.1) (Ne.symm hq.1) (ih hb.2 hq.2)

/-! ## Reading a form -/

/-- **What stands between quotes is read up to the closing quote**, each pair as one character. -/
theorem QuotedBody.choiceValuesFrom_append (h : QuotedBody v w) (hrest : '"' ∉ rest.head?)
    (current : List Char) :
    choiceValuesFrom true current (w ++ '"' :: rest) =
      choiceValuesFrom false (current ++ v) rest := by
  induction h generalizing current with
  | nil => rw [List.append_nil]; exact choiceValuesFrom_close hrest
  | char hb hq _ ih =>
    rw [List.cons_append, choiceValuesFrom_quoted hb hq, ih, List.append_assoc,
      List.singleton_append]
  | backslash _ ih | escaped _ ih =>
    rw [List.cons_append, List.cons_append, choiceValuesFrom_pair (.inl rfl), ih,
      List.append_assoc, List.singleton_append]
  | doubled _ ih =>
    rw [List.cons_append, List.cons_append, choiceValuesFrom_pair (.inr ⟨rfl, rfl⟩), ih,
      List.append_assoc, List.singleton_append]

/-- Outside of quotes a character that is neither a comma nor a quote belongs to the value. -/
theorem choiceValuesFrom_plain (hcomma : c ≠ ',') (hquote : c ≠ '"') :
    choiceValuesFrom false current (c :: s) = choiceValuesFrom false (current ++ [c]) s := by
  cases s with
  | nil => simp [choiceValuesFrom, hcomma, hquote]
  | cons d s => rw [choiceValuesFrom, if_neg (by simp), if_neg (by simp [hquote]), if_neg hcomma]

theorem choiceValuesFrom_append (hcomma : ',' ∉ t) (hquote : '"' ∉ t) (current : List Char) :
    choiceValuesFrom false current (t ++ rest) = choiceValuesFrom false (current ++ t) rest := by
  induction t generalizing current with
  | nil => rw [List.nil_append, List.append_nil]
  | cons c t ih =>
    rw [List.mem_cons, not_or] at hcomma hquote
    rw [List.cons_append, choiceValuesFrom_plain (Ne.symm hcomma.1) (Ne.symm hquote.1),
      ih hcomma.2 hquote.2, List.append_assoc, List.singleton_append]

/-- Blanks are read like any other character that means nothing. -/
theorem choiceValuesFrom_blanks (hgap : AllBlank gap) (current : List Char) :
    choiceValuesFrom false current (gap ++ rest) =
      choiceValuesFrom false (current ++ gap) rest :=
  choiceValuesFrom_append (Text.not_mem_of_forall hgap (by decide))
    (Text.not_mem_of_forall hgap (by decide)) current

/-- Blanks in front of an opening quote are forgotten. -/
theorem choiceValuesFrom_blanks_open (hgap : AllBlank gap) :
    choiceValuesFrom false gap ('"' :: s) = choiceValuesFrom true [] s := by
  have htrim : Text.trim gap = [] := Text.trim_eq_nil hgap
  cases s with
  | nil => simp [choiceValuesFrom, htrim, Text.trim_eq_nil Text.allBlank_nil]
  | cons d s => rw [choiceValuesFrom, if_neg (by simp), if_pos ⟨rfl, htrim⟩]

theorem head?_blanks_append (hgap : AllBlank gap) (hrest : '"' ∉ rest.head?) :
    '"' ∉ (gap ++ rest).head? := by
  cases gap with
  | nil => exact hrest
  | cons c gap =>
    rintro ⟨⟩
    have hblank : Text.isBlank '"' = true := hgap _ List.mem_cons_self
    exact absurd hblank (by decide)

/-- **An item is read as its value**, but for the blanks around it. -/
theorem IsChoiceItem.exists_choiceValuesFrom (h : IsChoiceItem v t) (hv : IsTrimmed v)
    (rest : List Char) (hrest : '"' ∉ rest.head?) :
    ∃ u, Text.trim u = v ∧
      choiceValuesFrom false [] (t ++ rest) = choiceValuesFrom false u rest := by
  obtain ⟨a, w, b, ha, hform, hb, rfl⟩ := h
  rw [List.append_assoc, List.append_assoc, choiceValuesFrom_blanks ha, List.nil_append]
  cases hform with
  | plain hcomma hquote =>
    refine ⟨a ++ v ++ b, ?_, ?_⟩
    · rw [Text.trim_append_right hb, Text.trim_append_left ha, hv.trim_eq]
    · rw [choiceValuesFrom_append hcomma hquote, choiceValuesFrom_blanks hb]
  | @quoted w hbody =>
    refine ⟨v ++ b, ?_, ?_⟩
    · rw [Text.trim_append_right hb, hv.trim_eq]
    · rw [List.cons_append, choiceValuesFrom_blanks_open ha, List.append_assoc,
        List.singleton_append, hbody.choiceValuesFrom_append (head?_blanks_append hb hrest),
        List.nil_append, choiceValuesFrom_blanks hb]

/-! ## Reading a list -/

theorem choiceValuesFrom_join_items (hne : values ≠ []) (htrim : ∀ v ∈ values, IsTrimmed v.toList)
    (h : List.Forall₂ (fun v t => IsChoiceItem v.toList t) values items) :
    choiceValuesFrom false [] (Text.join [','] items) = values.map String.toList := by
  induction h with
  | nil => exact absurd rfl hne
  | @cons v t values items hitem hitems ih =>
    have hv := htrim v List.mem_cons_self
    -- Each item is read up to the comma behind it, the last one up to the end.
    cases hitems with
    | nil =>
      obtain ⟨u, hu, hfrom⟩ := hitem.exists_choiceValuesFrom hv [] (by simp)
      rw [List.append_nil] at hfrom
      rw [Text.join, List.intercalate_singleton, hfrom, choiceValuesFrom, hu]
      rfl
    | @cons v' t' values items _ _ =>
      obtain ⟨u, hu, hfrom⟩ :=
        hitem.exists_choiceValuesFrom hv (',' :: Text.join [','] (t' :: items)) (by simp)
      have hjoin : Text.join [','] (t :: t' :: items) =
          t ++ ',' :: Text.join [','] (t' :: items) := by
        simp [Text.join, List.intercalate_cons_cons]
      rw [hjoin, hfrom, choiceValuesFrom_comma, hu]
      exact congrArg (v.toList :: ·)
        (ih (List.cons_ne_nil _ _) fun x hx => htrim x (List.mem_cons_of_mem _ hx))

/-- **Items in any mixture of forms are read as their values**, all of them and in their order. -/
theorem choiceValues_join_items (hne : values ≠ []) (htrim : ∀ v ∈ values, IsTrimmed v.toList)
    (h : List.Forall₂ (fun v t => IsChoiceItem v.toList t) values items) :
    choiceValues (String.ofList (Text.join [','] items)) = values := by
  rw [choiceValues, String.toList_ofList, choiceValuesFrom_join_items hne htrim h, List.map_map]
  simp [Function.comp_def]

/-- Values with commas, quotes and backslashes, one without a character, and one as it is. -/
def mixedValues : List String := ["a, b", "\"x\" \\", "", "C:\\dir"]

/-- The forms of these values, with blanks around some. -/
def mixedItems : List (List Char) :=
  [" \"a, b\"".toList, "\"\"\"x\\\" \\\\\" ".toList, "\t".toList, "C:\\dir".toList]

theorem choiceValues_join_mixedItems :
    (mixedValues ≠ [] ∧ (∀ v ∈ mixedValues, IsTrimmed v.toList) ∧
      List.Forall₂ (fun v t => IsChoiceItem v.toList t) mixedValues mixedItems) ∧
    choiceValues (String.ofList (Text.join [','] mixedItems)) = mixedValues := by
  have hne : mixedValues ≠ [] := by decide
  have htrim : ∀ v ∈ mixedValues, IsTrimmed v.toList := by
    simp only [Text.isTrimmed_iff]
    decide
  have hspace : AllBlank [' '] := Text.allBlank_space
  have hnone : AllBlank [] := Text.allBlank_nil
  have hitems : List.Forall₂ (fun v t => IsChoiceItem v.toList t) mixedValues mixedItems := by
    refine .cons ⟨[' '], "\"a, b\"".toList, [], hspace, ?_, hnone, rfl⟩
      (.cons ⟨[], "\"\"\"x\\\" \\\\\"".toList, [' '], hnone, ?_, hspace, rfl⟩
        (.cons ⟨[], [], ['\t'], hnone, .plain (by decide) (by decide), ?_, rfl⟩
          (.cons ⟨[], "C:\\dir".toList, [], hnone, .plain (by decide) (by decide), hnone, rfl⟩
            .nil)))
    · exact .quoted (quotedBody_of_not_mem (by decide) (by decide))
    · have hend : QuotedBody [' ', '\\'] [' ', '\\', '\\'] :=
        .char (by decide) (by decide) (.backslash .nil)
      exact .quoted (.doubled (.char (by decide) (by decide) (.escaped hend)))
    · simpa [AllBlank] using by decide
  exact ⟨⟨hne, htrim, hitems⟩, choiceValues_join_items hne htrim hitems⟩

end PayloadTypes.Rule
