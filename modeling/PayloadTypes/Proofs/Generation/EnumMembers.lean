import Mathlib.Data.List.Forall2
import PayloadTypes.Proofs.Generation.Writing
import PayloadTypes.Proofs.Text.Join
import PayloadTypes.Proofs.Text.Numeral
import PayloadTypes.Proofs.TypeText.Literal
/-!
# Members of enums

An enum is written with a line for each of its cases. The label of a case stands
there as it is, unlike the name of a field, which becomes a literal where it is no
identifier. So the lines name the cases just if all labels are identifiers, and
there is one line for each case just if no value holds a line feed. There are no
lines at all where a value is an integer that is too long to be written
(`listsCases_written_iff`).
-/

namespace PayloadTypes

variable {e : String × CaseValue} {ls ms : List String} {name t : String}
variable {cases : OrderedMap CaseValue}

/-! ## Lines -/

/-- The lines of a text. -/
def linesOf (t : String) : List String := (Text.splitOn '\n' t.toList).map String.ofList

theorem linesOf_of_not_mem (h : '\n' ∉ t.toList) : linesOf t = [t] := by
  rw [linesOf, Text.splitOn_of_not_mem h, List.map_singleton, String.ofList_toList]

theorem linesOf_append (a b : String) : linesOf (a ++ "\n" ++ b) = linesOf a ++ linesOf b := by
  have htext : (a ++ "\n" ++ b).toList = a.toList ++ '\n' :: b.toList := by simp
  rw [linesOf, htext, Text.splitOn_append_cons, List.map_append, linesOf, linesOf]

theorem length_linesOf (t : String) : (linesOf t).length = t.toList.count '\n' + 1 := by
  rw [linesOf, List.length_map, Text.length_splitOn]

theorem joinLines_append (hls : ls ≠ []) (hms : ms ≠ []) :
    joinLines (ls ++ ms) = joinLines ls ++ "\n" ++ joinLines ms := by
  have hls' : ls.map String.toList ≠ [] := by simpa using hls
  have hms' : ms.map String.toList ≠ [] := by simpa using hms
  simp only [joinLines, ← String.toList_inj, String.toList_append, String.toList_intercalate,
    List.map_append, List.append_assoc]
  exact Text.intercalate_append hls' hms' _

/-- Joined texts have the lines of all of them. -/
theorem linesOf_joinLines (hne : ls ≠ []) : linesOf (joinLines ls) = ls.flatMap linesOf := by
  induction ls with
  | nil => exact absurd rfl hne
  | cons l ls ih =>
    cases ls with
    | nil => simp [joinLines]
    | cons m ls =>
      have hjoin := joinLines_append (List.cons_ne_nil l []) (List.cons_ne_nil m ls)
      rw [List.singleton_append] at hjoin
      have hl : joinLines [l] = l := String.intercalate_singleton
      rw [hjoin, linesOf_append, hl, ih (List.cons_ne_nil _ _)]
      rfl

/-- **Joined texts have as many lines as there are texts just if each is a line**: every line feed
in them makes one line more. -/
theorem length_flatMap_linesOf_iff :
    (ls.flatMap linesOf).length = ls.length ↔ ∀ l ∈ ls, '\n' ∉ l.toList := by
  have hlength : (ls.flatMap linesOf).length =
      ls.length + (ls.flatMap String.toList).count '\n' := by
    induction ls with
    | nil => rfl
    | cons l ls ih =>
      rw [List.flatMap_cons, List.flatMap_cons, List.length_append, List.count_append,
        List.length_cons, ih, length_linesOf]
      omega
  rw [hlength, Nat.add_eq_left, List.count_eq_zero, List.mem_flatMap, not_exists]
  simp only [not_and]

theorem flatMap_linesOf_eq_self (h : ∀ l ∈ ls, '\n' ∉ l.toList) : ls.flatMap linesOf = ls := by
  have hlines : ∀ l ∈ ls, linesOf l = [l] := fun l hl => linesOf_of_not_mem (h l hl)
  rw [List.flatMap_congr hlines]
  simp

/-! ## Members -/

/-- A line is a member of an enum for a case: behind the indentation stand a name that denotes the
label, be it an identifier or a literal, and the value. -/
def IsMemberLine (e : String × CaseValue) (line : String) : Prop :=
  ∃ name, line = indent ++ name ++ " = " ++ e.2.literal ++ "," ∧ TypeText.NamesProperty name e.1

/-- The text of an enum lists cases: between its braces stands one member for each of them, in
order and on a line of its own, or nothing where there is none. -/
def ListsCases (name : String) (cases : OrderedMap CaseValue) (t : String) : Prop :=
  if cases.entries = [] then t = "export enum " ++ name ++ " \x7b\x7d"
  else ∃ body, t = "export enum " ++ name ++ " \x7b\n" ++ body ++ "\n\x7d" ∧
    List.Forall₂ IsMemberLine cases.entries (linesOf body)

/-- A text is no literal of itself, which would be longer. -/
theorem not_denotes_self (t : String) : ¬ TypeText.Denotes t t := by
  rintro ⟨s, hs, hbody⟩
  have hlength := congrArg List.length hs
  have hle := hbody.length_le
  simp only [List.length_cons, List.length_append, List.length_nil] at hlength
  omega

/-- **A label names itself just if it is an identifier.** -/
theorem namesProperty_self_iff (t : String) :
    TypeText.NamesProperty t t ↔ TypeText.isBareName t.toList = true := by
  rw [TypeText.NamesProperty, or_iff_left (not_denotes_self t), and_iff_right rfl]

theorem isMemberLine_caseLine_iff :
    IsMemberLine e (caseLine e.1 e.2) ↔ TypeText.isBareName e.1.toList = true := by
  rw [← namesProperty_self_iff]
  constructor
  · rintro ⟨name, hline, hname⟩
    have hlist := congrArg String.toList hline
    simp only [caseLine, String.toList_append, List.append_assoc, List.append_cancel_left_eq,
      List.append_cancel_right_eq, String.toList_inj] at hlist
    exact hlist ▸ hname
  · exact fun h => ⟨e.1, rfl, h⟩

/-- A value is written on one line. -/
def CaseValue.OnOneLine : CaseValue → Prop
  | .int _ => True
  | .text s => '\n' ∉ s.toList

theorem newline_not_mem_literal_iff (v : CaseValue) : '\n' ∉ v.literal.toList ↔ v.OnOneLine := by
  cases v with
  | int i =>
    refine iff_of_true (fun h => ?_) trivial
    rw [CaseValue.literal, String.toList_ofList] at h
    have := Text.toNat_of_mem_intDigits h
    revert this
    decide
  | text s =>
    have hquoted : '\n' ∈ Text.escapeWith '\\' '\'' s.toList ↔ '\n' ∈ s.toList := by
      refine ⟨fun h => ?_, Text.mem_escapeWith⟩
      exact (Text.eq_or_mem_of_mem_escapeWith h).resolve_left (by decide)
    rw [CaseValue.literal, CaseValue.OnOneLine, not_iff_not, TypeText.quoteLiteral,
      String.toList_ofList]
    simp [hquoted]

theorem newline_not_mem_caseLine_iff (h : TypeText.isBareName e.1.toList = true) :
    '\n' ∉ (caseLine e.1 e.2).toList ↔ e.2.OnOneLine := by
  have hlabel : '\n' ∉ e.1.toList := fun hmem =>
    absurd (TypeText.isQuotable_of_isBareName h '\n' hmem) (by decide)
  rw [← newline_not_mem_literal_iff]
  simp [caseLine, indent, hlabel]

/-! ## Enums -/

theorem enumText_of_ne_nil (hne : cases.entries ≠ []) :
    enumText name cases = "export enum " ++ name ++ " \x7b\n" ++
      joinLines (cases.entries.map fun e => caseLine e.1 e.2) ++ "\n\x7d" := by
  obtain ⟨e, es, hes⟩ := List.exists_cons_of_ne_nil hne
  have hlines : (e :: es).map (fun e => caseLine e.1 e.2) ≠ [] := by simp
  rw [enumText, hes]
  simp only
  rw [joinLines_append (by simp) (List.cons_ne_nil _ _),
    joinLines_append (List.cons_ne_nil _ _) hlines]
  simp [joinLines, ← String.toList_inj]

/-- **The lines of an enum name its cases one by one** just if all labels are identifiers and all
values stand on one line. -/
theorem listsCases_enumText_iff (name : String) (cases : OrderedMap CaseValue) :
    ListsCases name cases (enumText name cases) ↔
      ∀ e ∈ cases.entries, TypeText.isBareName e.1.toList = true ∧ e.2.OnOneLine := by
  by_cases hnil : cases.entries = []
  · simp [ListsCases, enumText, hnil]
  · obtain ⟨ls, hls⟩ : ∃ ls, ls = cases.entries.map fun e => caseLine e.1 e.2 := ⟨_, rfl⟩
    have hlength : ls.length = cases.entries.length := by rw [hls, List.length_map]
    have hne : ls ≠ [] := by simpa [hls] using hnil
    have hmembers : List.Forall₂ IsMemberLine cases.entries ls ↔
        ∀ e ∈ cases.entries, TypeText.isBareName e.1.toList = true := by
      rw [hls, List.forall₂_map_right_iff, List.forall₂_same]
      simp only [isMemberLine_caseLine_iff]
    rw [ListsCases, if_neg hnil, enumText_of_ne_nil hnil, ← hls]
    constructor
    · rintro ⟨body, htext, hbody⟩
      have hjoin : joinLines ls = body := by
        have hlist := congrArg String.toList htext
        simpa only [String.toList_append, List.append_cancel_right_eq, List.append_cancel_left_eq,
          String.toList_inj] using hlist
      rw [← hjoin, linesOf_joinLines hne] at hbody
      -- as many lines as cases leave one line for each member
      have hlines := length_flatMap_linesOf_iff.mp (hbody.length_eq.symm.trans hlength.symm)
      rw [flatMap_linesOf_eq_self hlines, hmembers] at hbody
      intro e he
      have hline := hlines (caseLine e.1 e.2) (hls ▸ List.mem_map_of_mem he)
      exact ⟨hbody e he, (newline_not_mem_caseLine_iff (hbody e he)).mp hline⟩
    · intro h
      have hlines : ∀ l ∈ ls, '\n' ∉ l.toList := by
        rw [hls, List.forall_mem_map]
        exact fun e he => (newline_not_mem_caseLine_iff (h e he).1).mpr (h e he).2
      refine ⟨_, rfl, ?_⟩
      rw [linesOf_joinLines hne, flatMap_linesOf_eq_self hlines, hmembers]
      exact fun e he => (h e he).1

theorem text_of_enum {d : TypeDecl} (h : d.kind = .enum) :
    d.text true = enumText d.name d.cases := by
  rw [TypeDecl.text, h]
  rfl

/-- **A declared enum is written member by member** just if all its labels are identifiers and all
its values can be written, each on one line. -/
theorem listsCases_written_iff (d : TypeDecl) (h : d.kind = .enum) :
    (∃ t, d.written true = .ok t ∧ ListsCases d.name d.cases t) ↔
      ∀ e ∈ d.cases.entries,
        TypeText.isBareName e.1.toList = true ∧ e.2.OnOneLine ∧ e.2.Writable := by
  have hwritable : (∀ v ∈ d.cases.values, v.Writable) ↔ ∀ e ∈ d.cases.entries, e.2.Writable :=
    List.forall_mem_map
  simp only [TypeDecl.written_eq_ok_iff_of_enum h, hwritable]
  constructor
  · rintro ⟨t, ⟨hvalues, rfl⟩, hlists⟩ e he
    rw [text_of_enum h] at hlists
    obtain ⟨hlabel, hline⟩ := (listsCases_enumText_iff _ _).mp hlists e he
    exact ⟨hlabel, hline, hvalues e he⟩
  · intro hall
    refine ⟨_, ⟨fun e he => (hall e he).2.2, rfl⟩, ?_⟩
    rw [text_of_enum h]
    exact (listsCases_enumText_iff _ _).mpr fun e he => ⟨(hall e he).1, (hall e he).2.1⟩

/-- An enum of a text and an integer. -/
def themes : TypeDecl :=
  EnumDecl.type ⟨"Theme", ⟨[("Light", .text "light's"), ("$dark_2", .int (-2))], by decide⟩, none⟩

theorem listsCases_written_themes :
    themes.kind = .enum ∧
      ∃ t, themes.written true = .ok t ∧ ListsCases themes.name themes.cases t := by
  refine ⟨rfl, (listsCases_written_iff themes rfl).mpr fun e he => ?_⟩
  rcases List.mem_cons.mp he with rfl | he
  · have hline : '\n' ∉ "light's".toList := by decide
    exact ⟨by decide, hline, trivial⟩
  · obtain rfl := List.mem_singleton.mp he
    have hdigit : (-2 : Int).natAbs < 10 ^ 1 := by decide
    exact ⟨by decide, trivial, hdigit.trans_le (Nat.pow_le_pow_right (by decide) (by decide))⟩

/-- An enum with a label that is no identifier. -/
def progress : TypeDecl :=
  EnumDecl.type ⟨"Progress", ⟨[("in-progress", .text "open")], by decide⟩, none⟩

/-- The enum is written, and the label stands in it without quotes. -/
theorem not_listsCases_written_progress :
    progress.kind = .enum ∧
      ∃ t, progress.written true = .ok t ∧ ¬ ListsCases progress.name progress.cases t := by
  refine ⟨rfl, _, rfl, fun h => ?_⟩
  rw [text_of_enum rfl] at h
  have hbare := ((listsCases_enumText_iff _ _).mp h ("in-progress", .text "open") (by decide)).1
  exact absurd hbare (by decide)

end PayloadTypes
