import Mathlib.Data.List.Nodup
import Mathlib.Data.List.Perm.Basic
import Mathlib.Tactic.Tauto
import PayloadTypes.Generation.Render
import PayloadTypes.Proofs.Generation.Accounting
import PayloadTypes.Proofs.Project.Keyed
/-!
# Exported names

A generated file exports one name for each of its blocks: that of the envelope,
that of every declaration, and the alias behind it (`forall₂_isExport`). Names
are kept apart within a section, whose entries are keyed by them, and nowhere
else. So the exported names are distinct exactly when no two sections declare
one name, no declaration is called after an alias, and nothing takes the name of
an envelope that is printed (`nodup_exports_generate_iff`).
-/

namespace PayloadTypes

variable {α : Type} {s : Settings} {p : Project} {g : Generation} {d : TypeDecl}

/-! ## The exported names -/

namespace TypeDecl

/-- The name of the type that stands beside a declaration, if one does. -/
def aliasName? (d : TypeDecl) : Option String :=
  if d.responseAlias then some (d.name ++ "Response") else none

/-- The names that a declaration exports. -/
def exports (d : TypeDecl) : List String := d.name :: d.aliasName?.toList

theorem aliasName?_eq_some_iff {n : String} :
    d.aliasName? = some n ↔ d.responseAlias = true ∧ n = d.name ++ "Response" := by
  rw [aliasName?]
  split
  · next h => simp [h, eq_comm]
  · next h => simp [h]

end TypeDecl

/-- The name of the envelope. -/
def envelopeName : String := "ApiResponse"

namespace Generation

/-- The blocks of the file of a generation. -/
def blocks (g : Generation) (s : Settings) : List String :=
  (if g.usesEnvelope then [envelope] else []) ++ g.declarations.flatMap (·.blocks s.nativeEnums)

/-- The names that the file of a generation exports, block by block. -/
def exports (g : Generation) : List String :=
  (if g.usesEnvelope then [envelopeName] else []) ++ g.declarations.flatMap (·.exports)

theorem render_eq (g : Generation) (s : Settings) : g.render s = joinLines (g.blocks s) ++ "\n" :=
  rfl

end Generation

/-! ## Blocks and the names they export -/

/-- A block exports a name: it stands behind the words of an export and ends there. -/
def IsExport (block name : String) : Prop :=
  ∃ words ∈ ["export type ", "export enum "], ∃ rest, block = words ++ name ++ rest ∧
    ∃ c ∈ rest.toList.head?, c ∈ [' ', '<']

theorem isExport_of_eq {block words name : String} {c : Char} (rest : String)
    (hwords : words ∈ ["export type ", "export enum "]) (hblock : block = words ++ name ++ rest)
    (hrest : rest.toList.head? = some c) (hc : c ∈ [' ', '<']) : IsExport block name :=
  ⟨words, hwords, rest, hblock, c, hrest, hc⟩

theorem isExport_typeText (name type : String) : IsExport (typeText name type) name := by
  refine isExport_of_eq (" = " ++ type ++ ";") List.mem_cons_self ?_ ?_ List.mem_cons_self
  · change "export type " ++ name ++ " = " ++ type ++ ";" = _
    simp only [String.append_assoc]
  · simp

theorem exists_joinLines_cons (l : String) (ls : List String) :
    ∃ t, joinLines (l :: ls) = l ++ t := by
  cases ls with
  | nil => exact ⟨"", by simp [joinLines]⟩
  | cons m ls => exact ⟨"\n" ++ joinLines (m :: ls), by simp [joinLines, String.append_assoc]⟩

theorem isExport_enumText (name : String) (cases : OrderedMap CaseValue) :
    IsExport (enumText name cases) name := by
  rw [enumText]
  split
  · have hwords : "export enum " ∈ ["export type ", "export enum "] :=
      List.mem_cons_of_mem _ List.mem_cons_self
    refine isExport_of_eq " \x7b\x7d" hwords rfl ?_ List.mem_cons_self
    simp
  · obtain ⟨t, ht⟩ := exists_joinLines_cons ("export enum " ++ name ++ " \x7b")
      (cases.entries.map (fun e => caseLine e.1 e.2) ++ ["\x7d"])
    have hwords : "export enum " ∈ ["export type ", "export enum "] :=
      List.mem_cons_of_mem _ List.mem_cons_self
    refine isExport_of_eq (" \x7b" ++ t) hwords ?_ ?_ List.mem_cons_self
    · simpa only [List.cons_append, List.nil_append, String.append_assoc] using ht
    · simp

theorem isExport_text (nativeEnums : Bool) (d : TypeDecl) :
    IsExport (d.text nativeEnums) d.name := by
  rw [TypeDecl.text]
  split
  · split
    · exact isExport_enumText _ _
    · exact isExport_typeText _ _
  · refine isExport_of_eq (" =\n" ++ pagedType d.itemType ++ ";") List.mem_cons_self ?_ ?_
      List.mem_cons_self
    · simp only [String.append_assoc]
    · simp
  · exact isExport_typeText _ _

theorem isExport_envelope : IsExport envelope envelopeName := by
  obtain ⟨t, ht⟩ := exists_joinLines_cons "export type ApiResponse<T> =" _
  refine isExport_of_eq (c := '<') ("<T> =" ++ t) List.mem_cons_self (ht.trans ?_) ?_
    (by decide)
  · rw [← String.append_assoc]
    rfl
  · simp

theorem forall₂_isExport_blocks (nativeEnums : Bool) (d : TypeDecl) :
    List.Forall₂ IsExport (d.blocks nativeEnums) d.exports := by
  refine .cons (isExport_text nativeEnums d) ?_
  rw [TypeDecl.aliasName?]
  split
  · exact .cons (isExport_typeText _ _) .nil
  · exact .nil

/-- **The blocks of a file export its names one by one.** -/
theorem forall₂_isExport (g : Generation) (s : Settings) :
    List.Forall₂ IsExport (g.blocks s) g.exports := by
  refine List.rel_append ?_ ?_
  · split
    · exact .cons isExport_envelope .nil
    · exact .nil
  · induction g.declarations with
    | nil => exact .nil
    | cons d ds ih => exact List.rel_append (forall₂_isExport_blocks _ d) ih

/-! ## When the names are distinct -/

namespace Generation

/-- The names of the types that stand beside declarations. -/
def aliases (g : Generation) : List String := g.declarations.filterMap (·.aliasName?)

theorem exports_perm (g : Generation) :
    g.exports.Perm ((if g.usesEnvelope then [envelopeName] else []) ++ (g.names ++ g.aliases)) := by
  refine List.Perm.append_left _ ?_
  rw [names, aliases, List.filterMap_eq_flatMap_toList]
  exact (List.map_append_flatMap_perm _ _ _).symm

theorem nodup_aliases (h : g.names.Nodup) : g.aliases.Nodup := by
  rw [aliases, List.Nodup, List.pairwise_filterMap]
  refine (List.pairwise_map.mp h).imp fun hne n hn m hm heq => hne ?_
  obtain ⟨-, rfl⟩ := TypeDecl.aliasName?_eq_some_iff.mp hn
  obtain ⟨-, rfl⟩ := TypeDecl.aliasName?_eq_some_iff.mp hm
  have := congrArg String.toList heq
  simpa only [String.toList_append, List.append_cancel_right_eq, String.toList_inj] using this

theorem mem_aliases {n : String} :
    n ∈ g.aliases ↔ ∃ d ∈ g.declarations, d.responseAlias = true ∧ n = d.name ++ "Response" := by
  simp only [aliases, List.mem_filterMap, TypeDecl.aliasName?_eq_some_iff]

theorem usesEnvelope_iff :
    g.usesEnvelope = true ↔ ∃ d ∈ g.declarations, d.responseAlias = true := List.any_eq_true

/-- An alias has the name of the envelope only behind one declaration. -/
theorem append_response_eq_envelopeName {n : String} :
    envelopeName = n ++ "Response" ↔ n = "Api" := by
  constructor
  · intro h
    have hlist := congrArg String.toList h
    rw [String.toList_append, show envelopeName.toList = "Api".toList ++ "Response".toList by rfl,
      List.append_cancel_right_eq, String.toList_inj] at hlist
    exact hlist.symm
  · rintro rfl
    rfl

/-- **What distinct exports ask of a generation.** -/
theorem nodup_exports_iff : g.exports.Nodup ↔
    g.names.Nodup ∧
      (∀ d ∈ g.declarations, d.responseAlias = true → d.name ++ "Response" ∉ g.names) ∧
      (g.usesEnvelope = true → envelopeName ∉ g.names ∧
        ∀ d ∈ g.declarations, d.responseAlias = true → d.name ≠ "Api") := by
  -- A name and an alias agree just where some response is named like a declaration.
  have hfree : g.names.Disjoint g.aliases ↔
      ∀ d ∈ g.declarations, d.responseAlias = true → d.name ++ "Response" ∉ g.names := by
    rw [List.disjoint_comm]
    constructor
    · exact fun h d hd halias => h (mem_aliases.mpr ⟨d, hd, halias, rfl⟩)
    · intro h n hn
      obtain ⟨d, hd, halias, rfl⟩ := mem_aliases.mp hn
      exact h d hd halias
  have hapi : envelopeName ∉ g.aliases ↔
      ∀ d ∈ g.declarations, d.responseAlias = true → d.name ≠ "Api" := by
    simp only [mem_aliases, append_response_eq_envelopeName, not_exists, not_and, ne_eq]
  have hnames : (g.names ++ g.aliases).Nodup ↔ g.names.Nodup ∧ g.names.Disjoint g.aliases := by
    rw [List.nodup_append']
    exact ⟨fun h => ⟨h.1, h.2.2⟩, fun h => ⟨h.1, nodup_aliases h.1, h.2⟩⟩
  rw [g.exports_perm.nodup_iff]
  cases huse : g.usesEnvelope with
  | false => simp [hnames, hfree]
  | true =>
    rw [if_pos rfl, List.singleton_append, List.nodup_cons, hnames, hfree, List.mem_append, not_or,
      hapi]
    simp only [forall_const]
    tauto

end Generation

/-! ## When the names of a project are distinct -/

namespace Project

/-- The types of a project, one list for each section. -/
def sections (p : Project) (s : Settings) : List (List TypeDecl) := [
  p.requests.values.filterMap (·.type? s), p.resources.values.filterMap (·.type? p s),
  p.collections.values.map (·.type s), p.data.values.map (·.type s), p.enums.values.map (·.type)]

theorem types_eq_flatten (p : Project) (s : Settings) : p.types s = (p.sections s).flatten := by
  simp [types, sections]

/-- What keeps the exported names of a project apart. -/
structure NamesApart (p : Project) (s : Settings) : Prop where
  /-- No two sections declare one name. -/
  sections : (p.sections s).Pairwise fun a b => ∀ d ∈ a, ∀ e ∈ b, d.name ≠ e.name
  /-- No declaration is called after the alias of one. -/
  aliases : ∀ d ∈ p.types s, d.responseAlias = true → ∀ e ∈ p.types s, e.name ≠ d.name ++ "Response"
  /-- Where an envelope is printed, no declaration and no alias has its name. -/
  envelope : (∃ d ∈ p.types s, d.responseAlias = true) → ∀ d ∈ p.types s,
    d.name ≠ envelopeName ∧ (d.responseAlias = true → d.name ≠ "Api")

/-- A section has the names of its keys, or some of them. -/
theorem nodup_names_filterMap {nameOf : α → String} {m : OrderedMap α} {f : α → Option TypeDecl}
    (hm : m.Keyed nameOf) (hf : ∀ a d, f a = some d → d.name = nameOf a) :
    ((m.values.filterMap f).map (·.name)).Nodup := by
  have hsub := (List.filter_sublist (l := m.values) (p := fun a => (f a).isSome)).map nameOf
  rw [hm.map_values] at hsub
  rw [map_name_filterMap hf]
  exact hsub.nodup m.nodup

theorem nodup_names_map {nameOf : α → String} {m : OrderedMap α} {f : α → TypeDecl}
    (hm : m.Keyed nameOf) (hf : ∀ a, (f a).name = nameOf a) :
    ((m.values.map f).map (·.name)).Nodup := by
  rw [← List.filterMap_eq_map' (f := f)]
  exact nodup_names_filterMap hm fun a d hd => Option.some.inj hd ▸ hf a

/-- **The names of a keyed section are distinct.** -/
theorem Keyed.nodup_names (h : p.Keyed) :
    ∀ ds ∈ p.sections s, (ds.map (·.name)).Nodup := by
  simp only [sections, List.forall_mem_cons, List.not_mem_nil, false_implies, implies_true,
    and_true]
  exact ⟨nodup_names_filterMap h.requests fun _ _ => RequestDecl.name_of_type?,
    nodup_names_filterMap h.resources fun _ _ => ResourceDecl.name_of_type?,
    nodup_names_map h.collections fun _ => rfl, nodup_names_map h.data fun _ => rfl,
    nodup_names_map h.enums fun _ => rfl⟩

theorem Keyed.nodup_names_types_iff (h : p.Keyed) :
    ((p.types s).map (·.name)).Nodup ↔
      (p.sections s).Pairwise fun a b => ∀ d ∈ a, ∀ e ∈ b, d.name ≠ e.name := by
  rw [types_eq_flatten, List.map_flatten, List.nodup_flatten, List.pairwise_map,
    and_iff_right (List.forall_mem_map.mpr h.nodup_names)]
  simp only [List.Disjoint, List.mem_map]
  refine Iff.of_eq (congrArg (fun R => (p.sections s).Pairwise R) ?_)
  funext a b
  refine propext ⟨fun hd d hda e heb heq => hd ⟨d, hda, rfl⟩ ⟨e, heb, heq.symm⟩, ?_⟩
  rintro hne n ⟨d, hd, rfl⟩ ⟨e, he, heq⟩
  exact hne d hd e he heq.symm

/-- **The exported names of a project are distinct exactly when its sections, its aliases and the
envelope keep them apart.** -/
theorem nodup_exports_generate_iff (p : Project) (s : Settings) (h : p.Keyed) :
    (p.generate s).render s = joinLines ((p.generate s).blocks s) ++ "\n" ∧
      List.Forall₂ IsExport ((p.generate s).blocks s) (p.generate s).exports ∧
      ((p.generate s).exports.Nodup ↔ p.NamesApart s) := by
  refine ⟨Generation.render_eq _ _, forall₂_isExport _ _, ?_⟩
  have hperm := declarations_generate_perm p s
  have hnames : (p.generate s).names.Perm ((p.types s).map (·.name)) := hperm.map _
  rw [Generation.nodup_exports_iff, hnames.nodup_iff, h.nodup_names_types_iff,
    Generation.usesEnvelope_iff]
  simp only [hnames.mem_iff, hperm.mem_iff, List.mem_map, not_exists, not_and]
  constructor
  · rintro ⟨hsections, haliases, henvelope⟩
    exact ⟨hsections, haliases, fun huse d hd => ⟨(henvelope huse).1 d hd, (henvelope huse).2 d hd⟩⟩
  · rintro ⟨hsections, haliases, henvelope⟩
    exact ⟨hsections, haliases, fun huse =>
      ⟨fun d hd => (henvelope huse d hd).1, fun d hd => (henvelope huse d hd).2⟩⟩

/-- A collection with its alias beside a data object and an enum of other names. -/
def apart : Project where
  requests := .empty
  resources := .empty
  collections := OrderedMap.empty.insert "UserCollection" ⟨"UserCollection", none, none⟩
  data := OrderedMap.empty.insert "UserData" ⟨"UserData", .empty, none⟩
  enums := OrderedMap.empty.insert "Role" ⟨"Role", OrderedMap.empty.insert "admin" (.int 1), none⟩

theorem keyed_apart : apart.Keyed where
  requests := OrderedMap.keyed_empty
  resources := OrderedMap.keyed_empty
  collections := OrderedMap.keyed_empty.insert rfl
  data := OrderedMap.keyed_empty.insert rfl
  enums := OrderedMap.keyed_empty.insert rfl

theorem nodup_exports_apart :
    apart.Keyed ∧
      (apart.generate .standard).render .standard =
        joinLines ((apart.generate .standard).blocks .standard) ++ "\n" ∧
      List.Forall₂ IsExport ((apart.generate .standard).blocks .standard)
        (apart.generate .standard).exports ∧
      ((apart.generate .standard).exports.Nodup ↔ apart.NamesApart .standard) :=
  ⟨keyed_apart, nodup_exports_generate_iff apart .standard keyed_apart⟩

/-- A data object and an enum of one name. -/
def colliding : Project where
  requests := .empty
  resources := .empty
  collections := .empty
  data := OrderedMap.empty.insert "User" ⟨"User", .empty, none⟩
  enums := OrderedMap.empty.insert "User" ⟨"User", .empty, none⟩

/-- Both are declared, though each section has the name once. -/
theorem not_nodup_exports_colliding :
    colliding.Keyed ∧ ¬ (colliding.generate .standard).exports.Nodup := by
  refine ⟨⟨OrderedMap.keyed_empty, OrderedMap.keyed_empty, OrderedMap.keyed_empty,
    OrderedMap.keyed_empty.insert rfl, OrderedMap.keyed_empty.insert rfl⟩, fun h => ?_⟩
  have hnames := (Generation.nodup_exports_iff.mp h).1
  have hperm := (declarations_generate_perm colliding .standard).map TypeDecl.name
  exact absurd (hperm.nodup_iff.mp hnames) (by decide)

end Project

end PayloadTypes
