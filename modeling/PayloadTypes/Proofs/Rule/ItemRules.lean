import PayloadTypes.Proofs.Rule.Confirmation
import PayloadTypes.Proofs.Text.Escape
/-!
# Item rules and the fields they describe

The suffix of an item rule is taken off once, and what is left is the name of
the field that the items belong to. So every item rule has its field
(`exists_definition_of_itemRule`). A key with the suffix twice leaves a name
that ends in the suffix still, and this is the only way to such a field
(`mem_names_fields_iff`): confirmations end otherwise, and declared names do by
definition.
-/

namespace PayloadTypes

variable {rules : RuleEntries} {companions : OrderedMap String} {d : FieldDefinition}
variable {name parent : String} {r : Rule}

/-! ## Names that end in the suffix -/

theorem itemParent?_eq_some_iff : itemParent? name = some parent ↔ name = parent ++ ".*" := by
  refine ⟨eq_append_of_itemParent?, ?_⟩
  rintro rfl
  have hcut : Text.before? ['.', '*'] (parent ++ ".*").toList = some parent.toList := by
    rw [String.toList_append]
    exact Text.before?_append _ _
  rw [itemParent?, hcut, Option.map_some, String.ofList_toList]

/-- A name that ends in another character does not describe items. -/
theorem itemParent?_confirmationName : itemParent? d.confirmationName = none := by
  rw [Option.eq_none_iff_forall_ne_some]
  intro p hp
  have hlast := congrArg (fun s : String => s.toList.getLast?) (itemParent?_eq_some_iff.mp hp)
  simp [FieldDefinition.confirmationName, List.getLast?_append] at hlast

namespace RuleEntries

/-- The names that are declared: those of the keys without the suffix. -/
theorem mem_names_declared :
    name ∈ (declared rules).map (·.name) ↔
      Value.text name ∈ rules.map Prod.fst ∧ itemParent? name = none := by
  rw [map_name_declared, List.mem_filterMap]
  constructor
  · rintro ⟨v, hv, hname⟩
    cases v with
    | text s =>
      simp only [declaredName?, Option.ite_none_left_eq_some, Option.some.injEq] at hname
      obtain ⟨hnone, rfl⟩ := hname
      exact ⟨hv, by simpa using hnone⟩
    | _ => cases hname
  · rintro ⟨hv, hnone⟩
    exact ⟨_, hv, by simp [declaredName?, hnone]⟩

/-- The names whose items are described: those in front of the suffix of a key. -/
theorem mem_names_items :
    name ∈ (items rules).map Prod.fst ↔ Value.text (name ++ ".*") ∈ rules.map Prod.fst := by
  rw [map_fst_items, List.mem_filterMap]
  constructor
  · rintro ⟨v, hv, hname⟩
    cases v with
    | text s => exact itemParent?_eq_some_iff.mp hname ▸ hv
    | _ => cases hname
  · intro hv
    exact ⟨_, hv, itemParent?_eq_some_iff.mpr rfl⟩

/-- The names of the fields that rules define: those of the keys, and those in front of the
suffix. -/
theorem mem_fieldNames :
    name ∈ rules.fieldNames ↔
      (Value.text name ∈ rules.map Prod.fst ∧ itemParent? name = none) ∨
        Value.text (name ++ ".*") ∈ rules.map Prod.fst := by
  rw [fieldNames_eq, List.mem_append, List.mem_filter, mem_names_items, mem_names_declared]
  by_cases hmem : Value.text name ∈ rules.map Prod.fst ∧ itemParent? name = none
  · exact iff_of_true (.inl hmem) (.inl hmem)
  · have hfree : (!((declared rules).map (·.name)).contains name) = true := by
      simpa [List.contains_eq_mem] using fun h => hmem (mem_names_declared.mp h)
    rw [or_iff_right hmem, or_iff_right hmem, hfree, and_iff_left rfl]

/-! ## The emitted fields -/

/-- **A field ends in the suffix exactly when a key has it once more**: confirmations never do. -/
theorem mem_names_fields_iff (companions : OrderedMap String) (h : (rules.map Prod.fst).Nodup)
    (hname : itemParent? name = some parent) :
    name ∈ (rules.fields companions).map (·.name) ↔
      Value.text (name ++ ".*") ∈ rules.map Prod.fst := by
  have hdefined : name ∈ rules.fieldNames ↔ Value.text (name ++ ".*") ∈ rules.map Prod.fst := by
    rw [mem_fieldNames, or_iff_right fun hdecl => by simp [hname] at hdecl]
  rw [← hdefined, fieldNames]
  constructor
  · intro hmem
    obtain ⟨f, hf, rfl⟩ := List.mem_map.mp hmem
    -- A field that confirms another one never has the name of an item.
    obtain ⟨d, hd, rfl | hconf⟩ := (mem_fields h).mp hf
    · exact List.mem_map_of_mem hd
    · obtain ⟨-, -, rfl⟩ := FieldDefinition.mem_confirmations.mp hconf
      rw [FieldDefinition.name_confirmation, itemParent?_confirmationName] at hname
      cases hname
  · intro hmem
    obtain ⟨d, hd, hdn⟩ := List.mem_map.mp hmem
    exact List.mem_map.mpr ⟨_, (mem_fields h).mpr ⟨d, hd, .inl rfl⟩, hdn⟩

/-- The items of a field are described once. -/
theorem nodup_names_items (h : (rules.map Prod.fst).Nodup) :
    ((items rules).map Prod.fst).Nodup := by
  rw [map_fst_items]
  exact h.filterMap fun _ _ _ => itemsName?_injective

theorem lookup_items (h : (rules.map Prod.fst).Nodup) (hr : (.text (parent ++ ".*"), r) ∈ rules) :
    (items rules).lookup parent = some r.tokens := by
  have hnodup := nodup_names_items h
  have hmem : (parent, r.tokens) ∈ items rules :=
    List.mem_filterMap.mpr ⟨_, hr, by simp [itemParent?_eq_some_iff.mpr rfl]⟩
  obtain ⟨before, after, hsplit⟩ := List.append_of_mem hmem
  rw [List.lookup_eq_some_iff]
  refine ⟨before, after, hsplit, fun e he => ?_⟩
  rw [hsplit, List.map_append, List.map_cons] at hnodup
  have hne := (List.nodup_append.mp hnodup).2.2 e.1 (List.mem_map_of_mem he) parent
    List.mem_cons_self
  simpa using Ne.symm hne

/-- **Every item rule is folded into a field**, whether that is declared or not. -/
theorem exists_definition_of_itemRule (h : (rules.map Prod.fst).Nodup)
    (hr : (.text (parent ++ ".*"), r) ∈ rules) :
    ∃ d ∈ rules.definitions, d.name = parent ∧ d.itemTokens = some r.tokens := by
  have hlookup := lookup_items h hr
  rw [definitions]
  by_cases hdecl : parent ∈ (declared rules).map (·.name)
  · obtain ⟨d, hd, rfl⟩ := List.mem_map.mp hdecl
    exact ⟨_, List.mem_append_left _ (List.mem_map_of_mem hd), rfl, hlookup⟩
  · have hitem : (parent, r.tokens) ∈ items rules := by
      obtain ⟨before, after, hsplit, -⟩ := List.lookup_eq_some_iff.mp hlookup
      simp [hsplit]
    have hkept : (parent, r.tokens) ∈
        (items rules).filter fun i => !((declared rules).map (·.name)).contains i.1 :=
      List.mem_filter.mpr ⟨hitem, by simpa [List.contains_eq_mem] using hdecl⟩
    exact ⟨_, List.mem_append_right _ (List.mem_map_of_mem hkept), rfl, rfl⟩

/-- **Item rules become part of their fields, and no field is left that ends in the suffix, exactly
when no key has the suffix twice.** -/
theorem itemRules_folded_iff (rules : RuleEntries) (companions : OrderedMap String)
    (h : (rules.map Prod.fst).Nodup) :
    (∀ parent r, (Value.text (parent ++ ".*"), r) ∈ rules →
      ∃ d ∈ rules.definitions, d.name = parent ∧ d.itemTokens = some r.tokens ∧
        d.field (companions.get? d.name) ∈ rules.fields companions) ∧
      ((∀ f ∈ rules.fields companions, itemParent? f.name = none) ↔
        ∀ n, Value.text (n ++ ".*" ++ ".*") ∉ rules.map Prod.fst) := by
  refine ⟨fun parent r hr => ?_, fun hnone n hn => ?_, fun hkeys f hf => ?_⟩
  · obtain ⟨d, hd, hname, htokens⟩ := exists_definition_of_itemRule h hr
    exact ⟨d, hd, hname, htokens, (mem_fields h).mpr ⟨d, hd, .inl rfl⟩⟩
  · have hparent : itemParent? (n ++ ".*") = some n := itemParent?_eq_some_iff.mpr rfl
    obtain ⟨f, hf, hname⟩ :=
      List.mem_map.mp ((mem_names_fields_iff companions h hparent).mpr hn)
    have hfree := hnone f hf
    rw [hname, hparent] at hfree
    cases hfree
  · rw [Option.eq_none_iff_forall_ne_some]
    intro parent hparent
    have hkey := (mem_names_fields_iff companions h hparent).mp
      (List.mem_map_of_mem hf)
    rw [itemParent?_eq_some_iff.mp hparent] at hkey
    exact hkeys parent hkey

/-- Rules for the rows of a matrix and for tags that are not declared. -/
def rowRules : RuleEntries :=
  [(.text "matrix.*", .text "array"), (.text "matrix", .text "required|array"),
    (.text "tags.*", .text "string"), (.int 3, .text "string")]

theorem itemRules_folded_rowRules :
    (rowRules.map Prod.fst).Nodup ∧
      (∀ parent r, (Value.text (parent ++ ".*"), r) ∈ rowRules →
        ∃ d ∈ rowRules.definitions, d.name = parent ∧ d.itemTokens = some r.tokens ∧
          d.field (OrderedMap.empty.get? d.name) ∈ rowRules.fields .empty) ∧
      ((∀ f ∈ rowRules.fields .empty, itemParent? f.name = none) ↔
        ∀ n, Value.text (n ++ ".*" ++ ".*") ∉ rowRules.map Prod.fst) :=
  have h : (rowRules.map Prod.fst).Nodup := by simp [rowRules]
  ⟨h, itemRules_folded_iff rowRules .empty h⟩

/-- The cells of a matrix are described, but neither its rows nor the matrix. -/
theorem itemParent?_fields_of_cells :
    RuleEntries.fields [(.text "matrix.*.*", .text "integer")] .empty =
        [⟨"matrix.*", "Array<number>", true⟩] ∧
      itemParent? "matrix.*" = some "matrix" := by
  refine ⟨?_, ?_⟩
  · decide
  · decide

end RuleEntries

end PayloadTypes
