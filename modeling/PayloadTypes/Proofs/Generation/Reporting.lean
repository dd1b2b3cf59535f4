import PayloadTypes.Generation.Generate
import PayloadTypes.Proofs.Source.TypeReading
import PayloadTypes.Proofs.Text.Escape
import PayloadTypes.Proofs.Text.Trim
import PayloadTypes.Proofs.TypeText.Reference
/-!
# Names that are reported

The symbols of a generation are the enums that the rules of its requests refer
to and the references of its type texts (`mem_names_symbols_generate`). A name
of a type text that is not declared is reported just when it is one of these
(`reported_iff`): an identifier that is no capitalised ASCII word is missed
unless it names an enum.
-/

namespace PayloadTypes

open Source (ClassRef)
open TypeText (references isTypeName StandsApart IsIdentifierIn)

variable {n x : String} {p : Project} {s : Settings} {g : Generation}

/-! ## Names of references -/

/-- A reference holds no backslash. -/
theorem backslash_not_mem (h : isTypeName n.toList = true) : '\\' ∉ n.toList :=
  Text.not_mem_of_forall (TypeText.isTypeName_iff.mp h).1 (by decide)

/-- A reference is its own full name. -/
theorem fullName_of_isTypeName (h : isTypeName n.toList = true) : fullName n = n := by
  have htrim : Text.IsTrimmed n.toList := by
    refine Text.isTrimmed_of_forall fun c hc => Text.isBlank_eq_false ?_
    have := Text.toNat_of_isIdentChar ((TypeText.isTypeName_iff.mp h).1 c hc)
    omega
  have hdrop : n.toList.dropWhile (· == '\\') = n.toList := by
    refine Text.dropWhile_append (w := []) (by simp) fun c hc => ?_
    refine beq_eq_false_iff_ne.mpr ?_
    rintro rfl
    exact backslash_not_mem h (List.mem_of_mem_head? hc)
  rw [fullName, htrim.trim_eq, hdrop, String.ofList_toList]

/-- A name of one segment is its own short name. -/
theorem shortName_eq_self (h : '\\' ∉ n.toList) : shortName n = n := by
  have hlast : Text.lastPiece '\\' n.toList = n.toList :=
    Text.lastPiece_append (t := []) (by simp) h
  rw [shortName, hlast, String.ofList_toList]

theorem shortName_of_isTypeName (h : isTypeName n.toList = true) : shortName n = n :=
  shortName_eq_self (backslash_not_mem h)

theorem ne_empty_of_isTypeName (h : isTypeName n.toList = true) : n ≠ "" := by
  rintro rfl
  cases h

/-! ## Symbols of a generation -/

theorem mem_names_foldl_union {α : Type} {f : α → Symbols} {l : List α} {acc : Symbols} :
    n ∈ (l.foldl (fun acc a => acc.union (f a)) acc).names ↔
      n ∈ acc.names ∨ ∃ a ∈ l, n ∈ (f a).names := by
  induction l generalizing acc with
  | nil => simp
  | cons a l ih =>
    rw [List.foldl_cons, ih, Symbols.mem_names_union, or_assoc]
    simp

/-- **The symbols of a generation** are those of the rules and the references of the types. -/
theorem mem_names_symbols_generate : n ∈ (p.generate s).symbols.names ↔
    (∃ r ∈ p.requests.values, n ∈ r.ruleEntries.symbols.names) ∨
      ∃ d ∈ (p.generate s).declarations, ∃ t ∈ d.types, n ∈ references t := by
  have hempty : n ∉ Symbols.empty.names := List.not_mem_nil
  have hfull : (∃ r ∈ (p.generate s).declarations.flatMap fun d => d.types.flatMap references,
      fullName r = n) ∧ n ≠ "" ↔
        ∃ d ∈ (p.generate s).declarations, ∃ t ∈ d.types, n ∈ references t := by
    simp only [List.mem_flatMap]
    constructor
    · rintro ⟨⟨r, ⟨d, hd, t, ht, hr⟩, rfl⟩, -⟩
      rw [fullName_of_isTypeName (TypeText.mem_references_iff.mp hr).1]
      exact ⟨d, hd, t, ht, hr⟩
    · rintro ⟨d, hd, t, ht, hn⟩
      have hname := (TypeText.mem_references_iff.mp hn).1
      exact ⟨⟨n, ⟨d, hd, t, ht, hn⟩, fullName_of_isTypeName hname⟩, ne_empty_of_isTypeName hname⟩
  have hsymbols : (p.generate s).symbols =
      (p.requests.values.foldl (fun acc r => acc.union r.ruleEntries.symbols) Symbols.empty).addAll
        ((p.generate s).declarations.flatMap fun d => d.types.flatMap references) := rfl
  rw [hsymbols, Symbols.mem_names_addAll, hfull, mem_names_foldl_union]
  simp [hempty]

theorem Generation.mem_unresolved_iff :
    x ∈ g.unresolved ↔ x ∈ g.symbols.shortNames ∧ x ∉ g.names := by
  rw [unresolved, List.mem_filter]
  simp

/-- A short name is that of an enum of the rules, or a reference of the types. -/
theorem mem_shortNames_generate : x ∈ (p.generate s).symbols.shortNames ↔
    (∃ r ∈ p.requests.values, x ∈ r.ruleEntries.symbols.shortNames) ∨
      ∃ d ∈ (p.generate s).declarations, ∃ t ∈ d.types, x ∈ references t := by
  simp only [Symbols.mem_shortNames, mem_names_symbols_generate]
  constructor
  · rintro ⟨n, ⟨r, hr, hn⟩ | ⟨d, hd, t, ht, hn⟩, rfl⟩
    · exact .inl ⟨r, hr, n, hn, rfl⟩
    · rw [shortName_of_isTypeName (TypeText.mem_references_iff.mp hn).1]
      exact .inr ⟨d, hd, t, ht, hn⟩
  · rintro (⟨r, hr, n, hn, rfl⟩ | ⟨d, hd, t, ht, hx⟩)
    · exact ⟨n, .inl ⟨r, hr, hn⟩, rfl⟩
    · have hname := (TypeText.mem_references_iff.mp hx).1
      exact ⟨x, .inr ⟨d, hd, t, ht, hx⟩, shortName_of_isTypeName hname⟩

/-! ## Reported names -/

/-- The name is declared, or listed because it is not. -/
def Generation.Reports (g : Generation) (x : String) : Prop := x ∈ g.names ∨ x ∈ g.unresolved

theorem Generation.reports_iff_shortNames :
    g.Reports x ↔ x ∈ g.names ∨ x ∈ g.symbols.shortNames := by
  rw [Reports, mem_unresolved_iff]
  by_cases h : x ∈ g.names <;> simp [h]

/-- **An identifier of a type is reported** just when it is declared, is the short name of an enum
that the rules of a request refer to, or is a capitalised ASCII word that stands apart in some type.
Such a word without a quote beside it always is. -/
theorem Project.reports_iff {d : TypeDecl} {t : String} {a b : List Char}
    (hd : d ∈ (p.generate s).declarations) (ht : t ∈ d.types)
    (htext : t.toList = a ++ (x.toList ++ b)) (hx : IsIdentifierIn a x.toList b)
    (hbuiltin : x ∉ TypeText.builtinNames) :
    ((p.generate s).Reports x ↔ x ∈ (p.generate s).names ∨
      (∃ r ∈ p.requests.values, x ∈ r.ruleEntries.symbols.shortNames) ∨
      isTypeName x.toList = true ∧ ∃ d ∈ (p.generate s).declarations, ∃ t ∈ d.types,
        StandsApart x.toList t.toList) ∧
    (isTypeName x.toList = true → (∀ c ∈ a.getLast?, TypeText.isQuote c = false) →
      (∀ c ∈ b.head?, TypeText.isQuote c = false) → (p.generate s).Reports x) := by
  have hreports : (p.generate s).Reports x ↔ x ∈ (p.generate s).names ∨
      (∃ r ∈ p.requests.values, x ∈ r.ruleEntries.symbols.shortNames) ∨
      isTypeName x.toList = true ∧ ∃ d ∈ (p.generate s).declarations, ∃ t ∈ d.types,
        StandsApart x.toList t.toList := by
    rw [Generation.reports_iff_shortNames, mem_shortNames_generate]
    simp only [TypeText.mem_references_iff, hbuiltin, not_false_eq_true, true_and]
    refine or_congr_right (or_congr_right ⟨?_, ?_⟩)
    · rintro ⟨d, hd, t, ht, hname, hapart⟩
      exact ⟨hname, d, hd, t, ht, hapart⟩
    · rintro ⟨hname, d, hd, t, ht, hapart⟩
      exact ⟨d, hd, t, ht, hname, hapart⟩
  refine ⟨hreports, fun hname ha hb => hreports.mpr (.inr (.inr ⟨hname, d, hd, t, ht, ?_⟩))⟩
  rw [htext]
  exact hx.standsApart ha hb

/-- A text of characters of identifiers is one, unless it starts with a digit. -/
theorem isIdentifierIn_nil {x : List Char} (hne : x ≠ [])
    (hstart : x.head?.any Text.isDigit = false)
    (hchars : x.all TypeText.isIdentifierChar = true) : IsIdentifierIn [] x [] where
  plain := rfl
  ne_nil := hne
  start := fun c hc => by
    rw [Option.mem_def.mp hc] at hstart
    exact hstart
  chars := List.all_eq_true.mp hchars
  front := by simp
  back := by simp

/-- A data object with a property of a class. -/
def holding (r : ClassRef) : Project where
  requests := .empty
  resources := .empty
  collections := .empty
  data := OrderedMap.empty.insert "JobData"
    ⟨"JobData", OrderedMap.empty.insert "payload" (String.ofList r.text), none⟩
  enums := .empty

theorem declarations_holding (r : ClassRef) : ((holding r).generate .standard).declarations =
    [.object "JobData" .data [⟨"payload", r.type, false⟩] false] := by
  have htypes : (holding r).types .standard = [.object "JobData" .data
      [⟨"payload", Source.declaredType false (some (String.ofList r.text)), false⟩] false] := rfl
  rw [Project.generate, htypes, List.mergeSort_singleton, Source.declaredType_named]

/-- The class is the type of the only field. -/
theorem exists_mem_types_holding (r : ClassRef) :
    ∃ d ∈ ((holding r).generate .standard).declarations, r.type ∈ d.types := by
  rw [declarations_holding]
  exact ⟨_, List.mem_singleton_self _, List.mem_singleton_self _⟩

/-- A class with a capital letter. -/
def jobRef : ClassRef where
  text := "App\\Jobs\\Job".toList
  isClassChar := List.all_eq_true.mp (by decide)
  ne_nil := by decide
  last_ne := by decide
  not_keyword := by decide +kernel

theorem reports_job :
    (∃ d ∈ ((holding jobRef).generate .standard).declarations, "Job" ∈ d.types) ∧
    IsIdentifierIn [] "Job".toList [] ∧ "Job" ∉ TypeText.builtinNames ∧
    ((holding jobRef).generate .standard).Reports "Job" := by
  have hx : IsIdentifierIn [] "Job".toList [] :=
    isIdentifierIn_nil (by decide) rfl rfl
  have hbuiltin : "Job" ∉ TypeText.builtinNames := by decide
  have htype : jobRef.type = "Job" := by decide
  obtain ⟨d, hd, ht⟩ := exists_mem_types_holding jobRef
  rw [htype] at ht
  have htext : "Job".toList = [] ++ ("Job".toList ++ []) := by simp
  exact ⟨⟨d, hd, ht⟩, hx, hbuiltin,
    (Project.reports_iff hd ht htext hx hbuiltin).2 (by decide) (by simp) (by simp)⟩

/-- A class with a small letter in front. -/
def stdClassRef : ClassRef where
  text := "stdClass".toList
  isClassChar := List.all_eq_true.mp (by decide)
  ne_nil := by decide
  last_ne := by decide
  not_keyword := by decide +kernel

/-- Nothing declares the class, and it is not reported. -/
theorem not_reports_stdClass :
    (∃ d ∈ ((holding stdClassRef).generate .standard).declarations, "stdClass" ∈ d.types) ∧
    IsIdentifierIn [] "stdClass".toList [] ∧ "stdClass" ∉ TypeText.builtinNames ∧
    ¬ ((holding stdClassRef).generate .standard).Reports "stdClass" := by
  have htype : stdClassRef.type = "stdClass" := by decide
  have hmention := exists_mem_types_holding stdClassRef
  rw [htype] at hmention
  have hunreported : ¬ ((holding stdClassRef).generate .standard).Reports "stdClass" := by
    rw [Generation.reports_iff_shortNames, mem_shortNames_generate]
    rintro (hdeclared | ⟨r, hr, -⟩ | ⟨d, -, t, -, hreference⟩)
    · rw [Generation.names, declarations_holding, List.map_singleton,
        List.mem_singleton] at hdeclared
      revert hdeclared
      decide
    · cases hr
    · have hname := (TypeText.mem_references_iff.mp hreference).1
      revert hname
      decide
  exact ⟨hmention, isIdentifierIn_nil (by decide) rfl rfl, by decide, hunreported⟩

end PayloadTypes
