import PayloadTypes.Proofs.Text.Escape
import PayloadTypes.Proofs.Text.Trim
import PayloadTypes.Rule.Choice
/-!
# The text of a choice

A choice stands for a text in which every value is in quotes, its own quotes
doubled. Read again, the text gives the same values exactly when none of them
holds a backslash (`choiceValuesFrom_choiceList_iff`): the reader takes a
backslash between quotes for the start of an escape and drops it, the writer
does not write it twice. That dropping cannot be made up for later is a matter
of counting, since reading never adds a backslash.
-/

namespace PayloadTypes.Rule

open Text (IsTrimmed isTrimmed_of_ends escapeWith count_trim)

variable {quoted : Bool} {current s v rest : List Char} {c d : Char}
variable {values : List String} {w : String}

/-! ## One step of the reader -/

/-- Between quotes a backslash takes the next character as it is, and so does a quote the next
quote. -/
theorem choiceValuesFrom_pair (h : c = '\\' ∨ c = '"' ∧ d = '"') :
    choiceValuesFrom true current (c :: d :: s) = choiceValuesFrom true (current ++ [d]) s := by
  rw [choiceValuesFrom, if_pos rfl, if_pos h]

/-- A quote without another one behind it ends what is between quotes. -/
theorem choiceValuesFrom_close (h : s.head? ≠ some '"') :
    choiceValuesFrom true current ('"' :: s) = choiceValuesFrom false current s := by
  cases s with
  | nil => simp [choiceValuesFrom]
  | cons d s =>
    have hd : d ≠ '"' := fun hd => h (by rw [hd, List.head?_cons])
    rw [choiceValuesFrom, if_pos rfl, if_neg (by simp [hd]), if_pos rfl]

/-- Any other character between quotes belongs to the value. -/
theorem choiceValuesFrom_quoted (hb : c ≠ '\\') (hq : c ≠ '"') :
    choiceValuesFrom true current (c :: s) = choiceValuesFrom true (current ++ [c]) s := by
  cases s with
  | nil => simp [choiceValuesFrom, hq]
  | cons d s => rw [choiceValuesFrom, if_pos rfl, if_neg (by simp [hb, hq]), if_neg hq]

/-- At the start of a value a quote opens. -/
theorem choiceValuesFrom_open :
    choiceValuesFrom false [] ('"' :: s) = choiceValuesFrom true [] s := by
  cases s with
  | nil => rfl
  | cons d s => rw [choiceValuesFrom, if_neg (by simp), if_pos ⟨rfl, rfl⟩]

/-- Outside of quotes a comma ends the value. -/
theorem choiceValuesFrom_comma :
    choiceValuesFrom false current (',' :: s) =
      Text.trim current :: choiceValuesFrom false [] s := by
  cases s with
  | nil => simp [choiceValuesFrom, Text.trim, Text.trimStart, Text.trimEnd, Text.dropEndWhile]
  | cons d s => rw [choiceValuesFrom, if_neg (by simp), if_neg (by simp), if_pos rfl]

/-! ## Counting backslashes -/

/-- **Reading adds no backslash.** -/
theorem count_choiceValuesFrom_le (quoted : Bool) (current s : List Char) :
    (choiceValuesFrom quoted current s).flatten.count '\\' ≤
      current.count '\\' + s.count '\\' := by
  have hb : Text.isBlank '\\' = false := by decide
  fun_induction choiceValuesFrom quoted current s <;>
    simp_all only [List.flatten_cons, List.flatten_nil, List.append_nil,
      List.count_append, List.count_cons, List.count_nil, count_trim hb] <;>
    omega

/-- Doubling the quotes of a value leaves its backslashes. -/
theorem count_escapeWith (v : List Char) : (escapeWith '"' '"' v).count '\\' = v.count '\\' := by
  induction v with
  | nil => rfl
  | cons c v ih =>
    by_cases hq : c = '"'
    · rw [hq, Text.escapeWith_cons_self]
      simp [ih]
    · rw [Text.escapeWith_cons_of_ne hq, List.count_cons, List.count_cons, ih]

/-- A value with a backslash loses one. -/
theorem count_choiceValuesFrom_lt (h : '\\' ∈ v) (current rest : List Char) :
    (choiceValuesFrom true current (escapeWith '"' '"' v ++ '"' :: rest)).flatten.count '\\' <
      current.count '\\' + v.count '\\' + rest.count '\\' := by
  induction v generalizing current with
  | nil => cases h
  | cons c v ih =>
    by_cases hb : c = '\\'
    -- the backslash is dropped, and the character behind it counts once
    · subst hb
      obtain ⟨d, s, hs⟩ : ∃ d s, escapeWith '"' '"' v ++ '"' :: rest = d :: s :=
        List.exists_cons_of_ne_nil (by simp)
      have hcount := congrArg (List.count '\\') hs
      have hle := count_choiceValuesFrom_le true (current ++ [d]) s
      rw [List.count_append, count_escapeWith, List.count_cons] at hcount
      simp only [List.count_append, List.count_cons, List.count_nil] at hle hcount ⊢
      rw [Text.escapeWith_cons_of_ne (by decide), List.cons_append, hs,
        choiceValuesFrom_pair (.inl rfl)]
      simp at hcount hle ⊢
      omega
    · have hv : '\\' ∈ v := (List.mem_cons.mp h).resolve_left (Ne.symm hb)
      by_cases hq : c = '"'
      · subst hq
        have := ih hv (current ++ ['"'])
        rw [Text.escapeWith_cons_self, List.cons_append, List.cons_append,
          choiceValuesFrom_pair (.inr ⟨rfl, rfl⟩)]
        simpa [List.count_append, List.count_cons] using this
      · have := ih hv (current ++ [c])
        rw [Text.escapeWith_cons_of_ne hq, List.cons_append, choiceValuesFrom_quoted hb hq]
        simpa [List.count_append, List.count_cons, hb] using this

/-! ## Reading what was written -/

/-- A value without backslashes is read up to its closing quote. -/
theorem choiceValuesFrom_escapeWith (h : '\\' ∉ v) (hrest : rest.head? ≠ some '"')
    (current : List Char) :
    choiceValuesFrom true current (escapeWith '"' '"' v ++ '"' :: rest) =
      choiceValuesFrom false (current ++ v) rest := by
  induction v generalizing current with
  | nil => rw [List.append_nil]; exact choiceValuesFrom_close hrest
  | cons c v ih =>
    have hb : c ≠ '\\' := fun hc => h (hc ▸ List.mem_cons_self)
    have hv : '\\' ∉ v := fun hm => h (List.mem_cons_of_mem _ hm)
    by_cases hq : c = '"'
    · subst hq
      rw [Text.escapeWith_cons_self, List.cons_append, List.cons_append,
        choiceValuesFrom_pair (.inr ⟨rfl, rfl⟩), ih hv, List.append_assoc, List.singleton_append]
    · rw [Text.escapeWith_cons_of_ne hq, List.cons_append, choiceValuesFrom_quoted hb hq, ih hv,
        List.append_assoc, List.singleton_append]

/-- The parameters of a choice as they are written. -/
def choiceList (values : List String) : List Char := Text.join [','] (values.map quotedChoice)

/-- What stands behind the first of the parameters. -/
def choiceRest : List String → List Char
  | [] => []
  | w :: values => ',' :: choiceList (w :: values)

theorem choiceList_cons :
    choiceList (w :: values) =
      '"' :: (escapeWith '"' '"' w.toList ++ '"' :: choiceRest values) := by
  cases values with
  | nil => simp [choiceList, Text.join, quotedChoice, choiceRest]
  | cons x values =>
    simp [choiceList, Text.join, quotedChoice, choiceRest, List.intercalate_cons_cons]

theorem head?_choiceRest : (choiceRest values).head? ≠ some '"' := by
  cases values <;> simp [choiceRest]

/-- The last character of the parameters is a quote. -/
theorem exists_choiceList_eq_concat (h : values ≠ []) : ∃ t, choiceList values = t ++ ['"'] := by
  induction values with
  | nil => exact absurd rfl h
  | cons w values ih =>
    rw [choiceList_cons]
    cases values with
    | nil => exact ⟨'"' :: escapeWith '"' '"' w.toList, by simp [choiceRest]⟩
    | cons x values =>
      obtain ⟨t, ht⟩ := ih (List.cons_ne_nil _ _)
      exact ⟨'"' :: (escapeWith '"' '"' w.toList ++ '"' :: ',' :: t), by simp [choiceRest, ht]⟩

theorem count_choiceRest (values : List String) :
    (choiceRest values).count '\\' = (choiceList values).count '\\' := by
  cases values <;> simp [choiceRest, choiceList, Text.join]

/-- Writing neither adds nor drops a backslash. -/
theorem count_choiceList (values : List String) :
    (choiceList values).count '\\' = (values.map String.toList).flatten.count '\\' := by
  induction values with
  | nil => rfl
  | cons w values ih =>
    simp only [choiceList_cons, List.count_cons, List.count_append, count_escapeWith,
      count_choiceRest, ih, List.map_cons, List.flatten_cons]
    simp

/-- **A choice is read back exactly when it holds no backslash.** -/
theorem choiceValuesFrom_choiceList_iff (hne : values ≠ [])
    (htrim : ∀ w ∈ values, IsTrimmed w.toList) :
    choiceValuesFrom false [] (choiceList values) = values.map String.toList ↔
      ∀ w ∈ values, '\\' ∉ w.toList := by
  induction values with
  | nil => exact absurd rfl hne
  | cons w values ih =>
    rw [choiceList_cons, choiceValuesFrom_open, List.forall_mem_cons]
    by_cases hw : '\\' ∈ w.toList
    -- a backslash is lost, and no later value can give it back
    · refine iff_of_false (fun heq => ?_) fun h => h.1 hw
      have hlt := count_choiceValuesFrom_lt hw [] (choiceRest values)
      rw [heq, count_choiceRest, count_choiceList, List.map_cons, List.flatten_cons,
        List.count_append, List.count_nil] at hlt
      omega
    · rw [choiceValuesFrom_escapeWith hw head?_choiceRest, List.nil_append,
        and_iff_right hw]
      have hw' := (htrim w List.mem_cons_self).trim_eq
      cases values with
      | nil => simp [choiceRest, choiceValuesFrom, hw']
      | cons x values =>
        rw [choiceRest, choiceValuesFrom_comma, hw', List.map_cons, List.cons.injEq,
          and_iff_right rfl]
        exact ih (List.cons_ne_nil _ _) fun u hu => htrim u (List.mem_cons_of_mem _ hu)

/-! ## The token of a choice -/

/-- The one token of a choice. -/
theorem tokens_choice (hne : values ≠ []) :
    tokens (.choice values) = [.text ("in:" ++ String.ofList (choiceList values))] := by
  obtain ⟨t, ht⟩ := exists_choiceList_eq_concat hne
  have htrim : IsTrimmed ("in:" ++ String.ofList (choiceList values)).toList := by
    simp only [ht, String.toList_append, String.toList_ofList]
    exact isTrimmed_of_ends (c := 'i') (s := 'n' :: ':' :: t) (d := '"') (by decide) (by decide)
  rw [tokens, textForm?, ← choiceList]
  · simp only [formToken, htrim.trim_eq]
    split
    · next hnil => simp at hnil
    · rw [String.ofList_toList]
  all_goals nofun

theorem nameAndParameters_choice (parameters : String) :
    nameAndParameters ("in:" ++ parameters) = ("in", some parameters) := by
  have hcut : Text.cut? ':' ("in:" ++ parameters).toList =
      some (['i', 'n'], parameters.toList) := by
    simp [Text.cut?]
  have hname : String.ofList (Text.lower (Text.trim ['i', 'n'])) = "in" := by decide
  simp only [nameAndParameters, hcut, hname, String.ofList_toList]

/-- **The token of a choice holds its values exactly when none of them holds a backslash.** Commas,
quotes, bars and blanks inside of a value do no harm. -/
theorem choiceValues_token_iff (values : List String) (hne : values ≠ [])
    (htrim : ∀ w ∈ values, IsTrimmed w.toList) :
    ∃ token parameters, tokens (.choice values) = [.text token] ∧
      nameAndParameters token = ("in", some parameters) ∧
      (choiceValues parameters = values ↔ ∀ w ∈ values, '\\' ∉ w.toList) := by
  refine ⟨_, _, tokens_choice hne, nameAndParameters_choice _, ?_⟩
  rw [← choiceValuesFrom_choiceList_iff hne htrim, choiceValues, String.toList_ofList]
  constructor
  · intro h
    have := congrArg (List.map String.toList) h
    simpa [List.map_map, Function.comp_def] using this
  · intro h
    rw [h]
    simp [List.map_map, Function.comp_def]

/-- Values that hold the characters which mean something in the text of a choice. -/
def markedValues : List String := ["a,b", "say \"x|y\"", "", "é: \"\""]

theorem choiceValues_token_markedValues :
    markedValues ≠ [] ∧ (∀ w ∈ markedValues, IsTrimmed w.toList) ∧
      ∃ token parameters, tokens (.choice markedValues) = [.text token] ∧
        nameAndParameters token = ("in", some parameters) ∧
        (choiceValues parameters = markedValues ↔ ∀ w ∈ markedValues, '\\' ∉ w.toList) :=
  have hne : markedValues ≠ [] := by decide
  have htrim : ∀ w ∈ markedValues, IsTrimmed w.toList := by
    simp only [Text.isTrimmed_iff]
    decide
  ⟨hne, htrim, choiceValues_token_iff markedValues hne htrim⟩

/-- The full name of a class loses its backslashes. -/
theorem choiceValues_token_of_class_name :
    tokens (.choice ["App\\Models\\User"]) = [.text "in:\"App\\Models\\User\""] ∧
      nameAndParameters "in:\"App\\Models\\User\"" = ("in", some "\"App\\Models\\User\"") ∧
      choiceValues "\"App\\Models\\User\"" = ["AppModelsUser"] := by
  refine ⟨?_, ?_, ?_⟩
  · exact tokens_choice (by decide)
  · decide
  · decide

end PayloadTypes.Rule
