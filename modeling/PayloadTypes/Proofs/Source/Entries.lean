import PayloadTypes.Proofs.Source.Expression
import PayloadTypes.Proofs.Text.Reader
import PayloadTypes.Source.ArrayLiteral
/-!
# Entries that are read back

An entry is written with its key in single quotes, an arrow and its
expression. The bracket of a returned literal is closed behind the last entry
(`returnedLiteral?_returnText`), a part of the literal gives its entry back
(`entry?_entryText`), and so the literal gives back all of them in order
(`entries_returnedLiteral?`).
-/

namespace PayloadTypes.Source

open Text (IsTrimmed AllBlank)

variable {c : Char} {k s t gap : List Char} {ps : List (List Char)} {e : String × String}
variable {es : List (String × String)}

/-! ## Written entries -/

/-- The text may be a key: it is not empty and holds no quote, no backslash and no arrow. -/
structure IsKey (k : List Char) : Prop where
  /-- It is not empty. -/
  ne_nil : k ≠ []
  /-- It has no single quote. -/
  quote : '\'' ∉ k
  /-- It has no backslash. -/
  backslash : '\\' ∉ k
  /-- It has no arrow. -/
  arrow : ¬ ['=', '>'] <:+: k

/-- An entry with its key in single quotes. -/
def entryText (e : String × String) : List Char :=
  '\'' :: (e.1.toList ++ '\'' :: ([' ', '=', '>', ' '] ++ e.2.toList))

/-- A statement that returns the literal of the entries, a gap behind each comma. -/
def returnText (gap : List Char) (es : List (String × String)) : List Char :=
  "return [".toList ++ (commaList gap (es.map entryText) ++ "];".toList)

theorem stringBody_of_not_mem {q : Char} (hq : q ∉ s) (hb : '\\' ∉ s) : StringBody q s := by
  induction s with
  | nil => exact .nil
  | cons c s ih =>
    rw [List.mem_cons, not_or] at hq hb
    exact .char (Ne.symm hb.1) (Ne.symm hq.1) (ih hq.2 hb.2)

/-- An entry is a part of a list. -/
theorem isExpression_entryText (hkey : IsKey e.1.toList) (hexpr : IsExpression e.2.toList) :
    IsExpression (entryText e) where
  trimmed := by
    have hfirst : IsTrimmed ['\''] := Text.isTrimmed_of_forall (List.forall_mem_singleton.mpr rfl)
    have := hfirst.append_append (w := e.1.toList ++ ['\'', ' ', '=', '>', ' '])
      (List.cons_ne_nil _ _) hexpr.trimmed hexpr.ne_nil
    simpa [entryText] using this
  ne_nil := List.cons_ne_nil _ _
  code := .string isQuote_single (stringBody_of_not_mem hkey.quote hkey.backslash)
    (.quiet_append (List.all_eq_true.mp rfl) hexpr.code)

theorem isExpression_map_entryText (hkeys : ∀ e ∈ es, IsKey e.1.toList)
    (hexprs : ∀ e ∈ es, IsExpression e.2.toList) : ∀ p ∈ es.map entryText, IsExpression p := by
  intro p hp
  obtain ⟨e, he, rfl⟩ := List.mem_map.mp hp
  exact isExpression_entryText (hkeys e he) (hexprs e he)

/-! ## The parts of a literal -/

/-- A part is read as it is without the blanks around it. -/
theorem entry?_trim (s : List Char) : entry? (Text.trim s) = entry? s := by
  unfold entry?
  rw [Text.trim_trim]

/-- A quoted key loses its quotes. -/
theorem bareKey_quoted (hne : k ≠ []) : bareKey ('\'' :: (k ++ ['\''])) = k := by
  have hafter : Text.after? ['\''] ('\'' :: (k ++ ['\''])) = some (k ++ ['\'']) :=
    Text.after?_append ['\''] _
  have hbetween : betweenQuotes? '\'' ('\'' :: (k ++ ['\''])) = some k := by
    simp [betweenQuotes?, hafter, hne]
  rw [bareKey, hbetween]
  rfl

/-- Nothing is cut off the end of an expression. -/
theorem dropEndWhile_isTrailer (h : IsExpression s) : Text.dropEndWhile isTrailer s = s := by
  refine Text.dropEndWhile_eq_self fun c hc => ?_
  have hcomma : c ≠ ',' := h.code.getLast?_ne_comma c hc
  have hblank : Text.isBlank c = false := h.trimmed.2 c hc
  have hne : ∀ d, Text.isBlank d = true → c ≠ d := by
    rintro d hd rfl
    rw [hblank] at hd
    cases hd
  simp [isTrailer, hcomma, hne '\n' (by decide), hne '\r' (by decide), hne ' ' (by decide)]

/-- The first arrow of an entry is the one behind its key. -/
theorem cutText?_entryText (hkey : IsKey e.1.toList) :
    Text.cutText? ['=', '>'] (entryText e) =
      some ('\'' :: (e.1.toList ++ ['\'', ' ']), ' ' :: e.2.toList) := by
  have harrow : ¬ ['=', '>'] <:+: '\'' :: (e.1.toList ++ ['\'', ' ']) := by
    intro h
    rcases List.infix_cons_iff.mp h with h | h
    · simp at h
    · have hquote : ['=', '>'] <:+: e.1.toList ++ ['\''] := by
        refine Text.infix_of_infix_concat (c := ' ') ?_ (by decide)
        rwa [List.append_assoc]
      exact hkey.arrow (Text.infix_of_infix_concat hquote (by decide))
  have := Text.cutText?_pair (by decide) harrow (' ' :: e.2.toList)
  simpa [entryText] using this

/-- **A part of the literal gives its entry back.** -/
theorem entry?_entryText (hkey : IsKey e.1.toList) (hexpr : IsExpression e.2.toList) :
    entry? (entryText e) = some e := by
  have hfront : Text.trim ('\'' :: (e.1.toList ++ ['\'', ' '])) =
      '\'' :: (e.1.toList ++ ['\'']) := by
    have hquoted : IsTrimmed ('\'' :: (e.1.toList ++ ['\''])) :=
      Text.isTrimmed_of_ends (by decide) (by decide)
    have := Text.trim_append_right (s := '\'' :: (e.1.toList ++ ['\''])) Text.allBlank_space
    simpa [hquoted.trim_eq] using this
  have hback : Text.trim (' ' :: e.2.toList) = e.2.toList := by
    have := Text.trim_append_left (s := e.2.toList) Text.allBlank_space
    rwa [hexpr.trimmed.trim_eq] at this
  unfold entry?
  rw [(isExpression_entryText hkey hexpr).trimmed.trim_eq, cutText?_entryText hkey,
    Option.map_some, hfront, hback, bareKey_quoted hkey.ne_nil, dropEndWhile_isTrailer hexpr,
    String.ofList_toList, String.ofList_toList]

/-! ## The returned literal -/

theorem commaList_ne_nil (hne : ps ≠ []) (h : ∀ p ∈ ps, IsExpression p) :
    commaList gap ps ≠ [] := by
  obtain ⟨p, rest, rfl⟩ := List.exists_cons_of_ne_nil hne
  have hp := (h p List.mem_cons_self).ne_nil
  cases rest with
  | nil => rwa [commaList_singleton]
  | cons r rest =>
    rw [commaList_cons_cons]
    exact List.append_ne_nil_of_left_ne_nil hp _

/-- A list of expressions is trimmed, since the first and the last of them are. -/
theorem isTrimmed_commaList (h : ∀ p ∈ ps, IsExpression p) : IsTrimmed (commaList gap ps) := by
  induction ps with
  | nil => exact Text.isTrimmed_of_forall (by simp [commaList, Text.join])
  | cons p ps ih =>
    have hp := h p List.mem_cons_self
    have hps : ∀ x ∈ ps, IsExpression x := fun x hx => h x (List.mem_cons_of_mem _ hx)
    cases ps with
    | nil =>
      rw [commaList_singleton]
      exact hp.trimmed
    | cons r ps =>
      have := hp.trimmed.append_append (w := ',' :: gap) hp.ne_nil (ih hps)
        (commaList_ne_nil (List.cons_ne_nil _ _) hps)
      simpa [commaList_cons_cons] using this

/-- The word `return` at the start of a text is the first. -/
theorem find?_returnWord (hc : Text.isWord c = false) (s : List Char) :
    Text.Reader.find? (Text.Reader.wordStart returnWord) ("return".toList ++ c :: s) =
      some ⟨[], (), c :: s⟩ := by
  have hend : Text.Reader.wordEnd (c :: s) = some ((), c :: s) := by
    simp [Text.Reader.wordEnd, hc]
  have hword : returnWord ("return".toList ++ c :: s) = some ((), c :: s) := by
    rw [returnWord, Text.Reader.bind_eq (Text.Reader.text_append rfl _), hend]
  exact Text.Reader.find?_of_start
    (List.append_ne_nil_of_right_ne_nil _ (List.cons_ne_nil _ _)) hword

/-- **The returned literal holds the list of its entries**, whatever follows its bracket. -/
theorem returnedLiteral?_returnText (hgap : AllBlank gap) (hkeys : ∀ e ∈ es, IsKey e.1.toList)
    (hexprs : ∀ e ∈ es, IsExpression e.2.toList) :
    returnedLiteral? (returnText gap es) = some (commaList gap (es.map entryText)) := by
  have hparts := isExpression_map_entryText hkeys hexprs
  have hfind := find?_returnWord (c := ' ') (by decide)
    ('[' :: (commaList gap (es.map entryText) ++ "];".toList))
  have hclose := (code_commaList hgap hparts).enclosed?_append (o := '[') (.inr (.inl rfl)) [';']
  have hsource : returnText gap es =
      "return".toList ++ ' ' :: '[' :: (commaList gap (es.map entryText) ++ "];".toList) := rfl
  have hcut : Text.cut? '[' (' ' :: '[' :: (commaList gap (es.map entryText) ++ "];".toList)) =
      some ([' '], commaList gap (es.map entryText) ++ "];".toList) := rfl
  have hclosed : enclosed? '[' (commaList gap (es.map entryText) ++ "];".toList) =
      some (commaList gap (es.map entryText), [';']) := hclose
  rw [returnedLiteral?, hsource, hfind]
  simp only [Option.bind_eq_bind, Option.bind_some, hcut, hclosed, Option.pure_def,
    (isTrimmed_commaList hparts).trim_eq]

/-- **Entries that are written are read back**, all of them and in their order. -/
theorem entries_returnedLiteral? (hgap : AllBlank gap) (hnodup : (es.map Prod.fst).Nodup)
    (hkeys : ∀ e ∈ es, IsKey e.1.toList) (hexprs : ∀ e ∈ es, IsExpression e.2.toList) :
    (returnedLiteral? (returnText gap es)).map (fun content => (entries content).entries) =
      some es := by
  have hparts := map_trim_splitCommas_commaList hgap (isExpression_map_entryText hkeys hexprs)
  have htrim : entry? ∘ Text.trim = entry? := funext entry?_trim
  have hread : ∀ e ∈ es, entry? (entryText e) = some e := fun e he =>
    entry?_entryText (hkeys e he) (hexprs e he)
  have hentries : (splitCommas (commaList gap (es.map entryText))).filterMap entry? = es := by
    calc (splitCommas (commaList gap (es.map entryText))).filterMap entry?
        = ((splitCommas (commaList gap (es.map entryText))).map Text.trim).filterMap entry? := by
          rw [List.filterMap_map, htrim]
      _ = es.filterMap fun e => entry? (entryText e) := by
          rw [hparts, List.filterMap_map]
          rfl
      _ = es := by
          rw [List.filterMap_congr hread, List.filterMap_some]
  rw [returnedLiteral?_returnText hgap hkeys hexprs, Option.map_some, entries, hentries,
    OrderedMap.entries_ofList hnodup]

/-- Entries with marks in strings, a division, and commas and arrows in brackets. -/
def markedEntries : List (String × String) :=
  [("a, b", "'x, ] // it\\'s'"), ("pages[]", "$n / 2"),
    ("tags", "map(fn ($t) => [$t, \"#\"], $ts)")]

theorem isKey_markedEntries : ∀ e ∈ markedEntries, IsKey e.1.toList := by
  intro e he
  simp only [markedEntries, List.mem_cons, List.not_mem_nil, or_false] at he
  rcases he with rfl | rfl | rfl <;>
    exact ⟨by simp, by simp, by simp, by simp; decide⟩

theorem isExpression_markedEntries : ∀ e ∈ markedEntries, IsExpression e.2.toList := by
  have hend : Code false [] := .nil
  have hstring : Code false "'x, ] // it\\'s'".toList := by
    have hbody := stringBody_escaped (q := '\'') (by decide) "x, ] // it's".toList
    simpa [escaped, Text.escapeWith] using Code.string isQuote_single hbody hend
  have hdivision : Code false "$n / 2".toList := by
    have hslash : Code false ['/', ' ', '2'] :=
      .char (by simp [IsQuote]) (by decide) (by decide) (by decide)
        (.quiet_append (s := [' ', '2']) (List.all_eq_true.mp rfl) .nil)
    simpa using Code.quiet_append (s := ['$', 'n', ' ']) (List.all_eq_true.mp rfl) hslash
  have hitem : Code true ['$', 't', ',', ' ', '"', '#', '"'] :=
    .quiet_append (s := ['$', 't']) (List.all_eq_true.mp rfl) (code_comma_append Text.allBlank_space
      (.string (q := '"') (.inr rfl) (stringBody_escaped (by decide) ['#']) .nil))
  have hcall : Code false "map(fn ($t) => [$t, \"#\"], $ts)".toList := by
    have hrest : Code true [',', ' ', '$', 't', 's'] :=
      code_comma_append Text.allBlank_space
        (.quiet_append (s := ['$', 't', 's']) (List.all_eq_true.mp rfl) .nil)
    have harrow := Code.quiet_append (s := [' ', '=', '>', ' ']) (List.all_eq_true.mp rfl)
      (.group (.inr (.inl rfl)) hitem hrest)
    have hfunction := Code.quiet_append (s := ['f', 'n', ' ']) (List.all_eq_true.mp rfl)
      (.group (.inl rfl) (.quiet_append (s := ['$', 't']) (List.all_eq_true.mp rfl) .nil) harrow)
    have hcall := Code.quiet_append (s := ['m', 'a', 'p']) (List.all_eq_true.mp rfl)
      (.group (.inl rfl) hfunction hend)
    simpa [closer] using hcall
  intro e he
  simp only [markedEntries, List.mem_cons, List.not_mem_nil, or_false] at he
  rcases he with rfl | rfl | rfl
  · exact ⟨by simp [IsTrimmed]; decide, by simp, hstring⟩
  · exact ⟨by simp [IsTrimmed]; decide, by simp, hdivision⟩
  · exact ⟨by simp [IsTrimmed]; decide, by simp, hcall⟩

theorem entries_returnedLiteral?_markedEntries :
    (AllBlank ['\n', ' '] ∧ (markedEntries.map Prod.fst).Nodup ∧
      (∀ e ∈ markedEntries, IsKey e.1.toList) ∧ ∀ e ∈ markedEntries, IsExpression e.2.toList) ∧
    (returnedLiteral? (returnText ['\n', ' '] markedEntries)).map
      (fun content => (entries content).entries) = some markedEntries := by
  have hgap : AllBlank ['\n', ' '] := by
    simpa [AllBlank] using by decide
  have hnodup : (markedEntries.map Prod.fst).Nodup := by decide
  exact ⟨⟨hgap, hnodup, isKey_markedEntries, isExpression_markedEntries⟩,
    entries_returnedLiteral? hgap hnodup isKey_markedEntries isExpression_markedEntries⟩

end PayloadTypes.Source
