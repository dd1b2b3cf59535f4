import Mathlib.Data.List.Nodup
import PayloadTypes.Rule.Field
/-!
# Fields and their confirmations

The loop over the definitions carries the names it has emitted and asks them
before it adds a confirmation. `fieldsFrom_eq_flatMap` shows that the answer
never depends on them: two definitions have different confirmations, so a
confirmation that was emitted before is one that is declared. What the fields
of rules look like is then read off one definition at a time.
-/

namespace PayloadTypes

variable {rules : RuleEntries} {companions : OrderedMap String} {companion : Option String}
variable {d e : FieldDefinition} {taken emitted : List String} {ds : List FieldDefinition}

/-! ## The names of the definitions -/

/-- The name of the field that a key declares. -/
def declaredName? : Value → Option String
  | .text name => if (itemParent? name).isSome then none else some name
  | _ => none

/-- The name of the field whose items a key describes. -/
def itemsName? : Value → Option String
  | .text name => itemParent? name
  | _ => none

/-- A key that describes items is the name of the field with the suffix behind it. -/
theorem eq_append_of_itemParent? {name parent : String} (h : itemParent? name = some parent) :
    name = parent ++ ".*" := by
  obtain ⟨cs, hcs, rfl⟩ := Option.map_eq_some_iff.mp h
  rw [← String.toList_inj, String.toList_append, String.toList_ofList]
  exact Text.before?_eq_some hcs

theorem eq_text_of_declaredName? {v : Value} {name : String} (h : declaredName? v = some name) :
    v = .text name := by
  cases v with
  | text s =>
    simp only [declaredName?, Option.ite_none_left_eq_some, Option.some.injEq] at h
    rw [h.2]
  | _ => cases h

theorem eq_text_of_itemsName? {v : Value} {name : String} (h : itemsName? v = some name) :
    v = .text (name ++ ".*") := by
  cases v with
  | text s => rw [eq_append_of_itemParent? h]
  | _ => cases h

theorem declaredName?_injective {a b : Value} {name : String} (ha : name ∈ declaredName? a)
    (hb : name ∈ declaredName? b) : a = b :=
  (eq_text_of_declaredName? ha).trans (eq_text_of_declaredName? hb).symm

theorem itemsName?_injective {a b : Value} {name : String} (ha : name ∈ itemsName? a)
    (hb : name ∈ itemsName? b) : a = b :=
  (eq_text_of_itemsName? ha).trans (eq_text_of_itemsName? hb).symm

namespace RuleEntries

/-- The names of the fields that rules define, in order. -/
def fieldNames (rules : RuleEntries) : List String := rules.definitions.map (·.name)

theorem map_name_declared :
    (declared rules).map (·.name) = (rules.map Prod.fst).filterMap declaredName? := by
  rw [declared, List.map_filterMap, List.filterMap_map]
  refine List.filterMap_congr fun e _ => ?_
  rcases e with ⟨v, r⟩
  cases v with
  | text name =>
    simp only [Function.comp_apply, declaredName?]
    split <;> rfl
  | _ => rfl

theorem map_fst_items : (items rules).map Prod.fst = (rules.map Prod.fst).filterMap itemsName? := by
  rw [items, List.map_filterMap, List.filterMap_map]
  refine List.filterMap_congr fun e _ => ?_
  rcases e with ⟨v, r⟩
  cases v with
  | text name => simp [itemsName?, Function.comp_def]
  | _ => rfl

theorem fieldNames_eq :
    rules.fieldNames = (declared rules).map (·.name) ++
      ((items rules).map Prod.fst).filter
        fun n => !((declared rules).map (·.name)).contains n := by
  simp only [fieldNames, definitions, List.map_append, List.map_map, List.filter_map]
  rfl

/-- **Distinct keys define distinct fields.** A field is declared under its own name, or has items
under its name and the suffix, or both; of both the definition is one. -/
theorem nodup_fieldNames (h : (rules.map Prod.fst).Nodup) : rules.fieldNames.Nodup := by
  rw [fieldNames_eq]
  refine List.Nodup.append ?_ ?_ ?_
  · rw [map_name_declared]
    exact h.filterMap fun _ _ _ => declaredName?_injective
  · rw [map_fst_items]
    exact (h.filterMap fun _ _ _ => itemsName?_injective).filter _
  · intro n hn hi
    have := (List.mem_filter.mp hi).2
    simp only [Bool.not_eq_true', List.contains_eq_mem, decide_eq_false_iff_not] at this
    exact this hn

end RuleEntries

/-! ## The loop -/

namespace FieldDefinition

theorem confirmationName_injective (h : d.confirmationName = e.confirmationName) :
    d.name = e.name := by
  have := congrArg String.toList h
  simp only [confirmationName, String.toList_append, List.append_cancel_right_eq] at this
  exact String.toList_inj.mp this

/-- The confirmation of a field: the same field under another name. -/
def confirmation (d : FieldDefinition) (companion : Option String) : Field :=
  { d.field companion with name := d.confirmationName }

@[simp] theorem name_field : (d.field companion).name = d.name := rfl

@[simp] theorem name_confirmation : (d.confirmation companion).name = d.confirmationName := rfl

/-- The confirmation of a field, if one is added behind it. -/
def confirmations (d : FieldDefinition) (companion : Option String) (taken : List String) :
    List Field :=
  if Rule.isConfirmed d.tokens && !taken.contains d.confirmationName then
    [d.confirmation companion]
  else []

theorem fields_eq_cons :
    d.fields companion taken = d.field companion :: d.confirmations companion taken := by
  simp only [fields, confirmations]
  split <;> rfl

theorem mem_confirmations {f : Field} :
    f ∈ d.confirmations companion taken ↔
      Rule.isConfirmed d.tokens ∧ d.confirmationName ∉ taken ∧
        f = d.confirmation companion := by
  unfold confirmations
  split <;> simp_all

/-- The names of the one or two fields of a definition. -/
theorem mem_map_name_fields {n : String} :
    n ∈ (d.fields companion taken).map (·.name) ↔
      n = d.name ∨ Rule.isConfirmed d.tokens ∧ d.confirmationName ∉ taken ∧
        n = d.confirmationName := by
  simp only [fields_eq_cons, List.map_cons, List.mem_cons, List.mem_map, mem_confirmations]
  constructor
  · rintro (rfl | ⟨f, ⟨hc, hfree, rfl⟩, rfl⟩)
    · exact .inl rfl
    · exact .inr ⟨hc, hfree, rfl⟩
  · rintro (rfl | ⟨hc, hfree, rfl⟩)
    · exact .inl rfl
    · exact .inr ⟨_, ⟨hc, hfree, rfl⟩, rfl⟩

/-- Names that are taken anyway may be left out. -/
theorem confirmations_append (h : d.confirmationName ∈ emitted → d.confirmationName ∈ taken) :
    d.confirmations companion (emitted ++ taken) = d.confirmations companion taken := by
  have : (emitted ++ taken).contains d.confirmationName = taken.contains d.confirmationName := by
    simp only [List.contains_eq_mem, decide_eq_decide, List.mem_append, or_iff_right_iff_imp]
    exact h
  rw [confirmations, this, confirmations]

end FieldDefinition

namespace RuleEntries

/-- What the loop keeps: a name emitted before is declared, or confirms no definition to come. -/
def Passed (taken emitted : List String) (ds : List FieldDefinition) : Prop :=
  ∀ d ∈ ds, d.confirmationName ∈ emitted → d.confirmationName ∈ taken

/-- One turn of the loop keeps the invariant. -/
theorem Passed.step (h : Passed taken emitted (d :: ds)) (hd : d.name ∈ taken)
    (hne : ∀ e ∈ ds, d.name ≠ e.name) :
    Passed taken (emitted ++ (d.fields companion taken).map (·.name)) ds := by
  intro e he hmem
  rcases List.mem_append.mp hmem with hmem | hmem
  · exact h e (List.mem_cons_of_mem _ he) hmem
  · rcases FieldDefinition.mem_map_name_fields.mp hmem with heq | ⟨-, -, heq⟩
    · rw [heq]
      exact hd
    -- the confirmation of `d` is none of `e`, whose name is another one
    · exact absurd (FieldDefinition.confirmationName_injective heq).symm (hne e he)

/-- **The names emitted before do not matter**: each definition gives the fields that it gives when
only the declared names are taken. -/
theorem fieldsFrom_eq_flatMap (hpassed : Passed taken emitted ds)
    (hnames : ∀ d ∈ ds, d.name ∈ taken) (hds : (ds.map (·.name)).Nodup) :
    fieldsFrom taken companions emitted ds =
      ds.flatMap fun d => d.fields (companions.get? d.name) taken := by
  induction ds generalizing emitted with
  | nil => rfl
  | cons d ds ih =>
    rw [List.map_cons, List.nodup_cons] at hds
    -- The names are distinct, so what one definition emits confirms none of those behind it.
    have hne : ∀ e ∈ ds, d.name ≠ e.name := by
      intro e he heq
      exact hds.1 (heq ▸ List.mem_map_of_mem he)
    have hfields : d.fields (companions.get? d.name) (emitted ++ taken) =
        d.fields (companions.get? d.name) taken := by
      rw [FieldDefinition.fields_eq_cons, FieldDefinition.fields_eq_cons,
        FieldDefinition.confirmations_append (hpassed d List.mem_cons_self)]
    rw [fieldsFrom, hfields, List.flatMap_cons,
      ih (hpassed.step (hnames d List.mem_cons_self) hne)
        (fun e he => hnames e (List.mem_cons_of_mem _ he)) hds.2]

/-- The fields of rules, one definition at a time. -/
theorem fields_eq_flatMap (h : (rules.map Prod.fst).Nodup) :
    rules.fields companions =
      rules.definitions.flatMap fun d => d.fields (companions.get? d.name) rules.fieldNames :=
  fieldsFrom_eq_flatMap (fun _ _ hmem => absurd hmem List.not_mem_nil)
    (fun _ hd => List.mem_map_of_mem hd) (nodup_fieldNames h)

/-! ## What the fields look like -/

/-- Every emitted field is the field of a definition or its confirmation. -/
theorem mem_fields (h : (rules.map Prod.fst).Nodup) {f : Field} :
    f ∈ rules.fields companions ↔ ∃ d ∈ rules.definitions,
      f = d.field (companions.get? d.name) ∨
        f ∈ d.confirmations (companions.get? d.name) rules.fieldNames := by
  simp only [fields_eq_flatMap h, List.mem_flatMap, FieldDefinition.fields_eq_cons, List.mem_cons]

/-- No two emitted fields have one name. -/
theorem nodup_names_fields (h : (rules.map Prod.fst).Nodup) :
    ((rules.fields companions).map (·.name)).Nodup := by
  rw [fields_eq_flatMap h, List.map_flatMap, List.nodup_flatMap]
  constructor
  · intro d hd
    rw [FieldDefinition.fields_eq_cons, List.map_cons, List.nodup_cons]
    refine ⟨fun hmem => ?_, ?_⟩
    · obtain ⟨f, hf, heq⟩ := List.mem_map.mp hmem
      obtain ⟨-, hfree, rfl⟩ := FieldDefinition.mem_confirmations.mp hf
      exact hfree (List.mem_map.mpr ⟨d, hd, heq.symm⟩)
    · unfold FieldDefinition.confirmations
      split <;> simp
  · have hpair : rules.definitions.Pairwise fun d e => d.name ≠ e.name :=
      List.pairwise_map.mp (nodup_fieldNames h)
    refine hpair.imp_of_mem fun {d e} hd he hne => ?_
    intro n hn hm
    -- a name under both is declared by one of them, or confirms both
    rcases FieldDefinition.mem_map_name_fields.mp hn with rfl | ⟨-, hfree, rfl⟩ <;>
      rcases FieldDefinition.mem_map_name_fields.mp hm with hm | ⟨-, hfree', hm⟩
    · exact hne hm
    · exact hfree' (List.mem_map.mpr ⟨d, hd, hm⟩)
    · exact hfree (List.mem_map.mpr ⟨e, he, hm.symm⟩)
    · exact hne (FieldDefinition.confirmationName_injective hm)

/-- Without the confirmations that were added the fields are those of the definitions. -/
theorem filter_fields (h : (rules.map Prod.fst).Nodup) :
    (rules.fields companions).filter (fun f => rules.fieldNames.contains f.name) =
      rules.definitions.map fun d => d.field (companions.get? d.name) := by
  rw [fields_eq_flatMap h, List.filter_flatMap, List.map_eq_flatMap]
  refine List.flatMap_congr fun d hd => ?_
  have hd' : d.name ∈ rules.fieldNames := List.mem_map_of_mem hd
  rw [FieldDefinition.fields_eq_cons, List.filter_cons_of_pos (by simpa using hd'),
    List.filter_eq_nil_iff.mpr]
  intro f hf
  obtain ⟨-, hfree, rfl⟩ := FieldDefinition.mem_confirmations.mp hf
  simpa using hfree

/-- A definition's confirmation follows its field. -/
theorem exists_fields_eq_append (h : (rules.map Prod.fst).Nodup) (hd : d ∈ rules.definitions)
    (hc : Rule.isConfirmed d.tokens) (hfree : d.confirmationName ∉ rules.fieldNames) :
    ∃ before after, rules.fields companions =
      before ++ [d.field (companions.get? d.name), d.confirmation (companions.get? d.name)] ++
        after := by
  obtain ⟨pre, post, hds⟩ := List.append_of_mem hd
  have hfields : d.fields (companions.get? d.name) rules.fieldNames =
      [d.field (companions.get? d.name), d.confirmation (companions.get? d.name)] := by
    rw [FieldDefinition.fields_eq_cons, FieldDefinition.confirmations, if_pos (by simp [hc, hfree])]
  refine ⟨pre.flatMap fun d => d.fields (companions.get? d.name) rules.fieldNames,
    post.flatMap fun d => d.fields (companions.get? d.name) rules.fieldNames, ?_⟩
  rw [fields_eq_flatMap h, hds, List.flatMap_append, List.flatMap_cons, hfields,
    ← List.append_assoc]

/-- A confirmed field has a field under the name of its confirmation. -/
theorem confirmationName_mem_fields (h : (rules.map Prod.fst).Nodup) (hd : d ∈ rules.definitions)
    (hc : Rule.isConfirmed d.tokens) :
    d.confirmationName ∈ (rules.fields companions).map (·.name) := by
  by_cases hfree : d.confirmationName ∈ rules.fieldNames
  · obtain ⟨e, he, heq⟩ := List.mem_map.mp hfree
    exact List.mem_map.mpr ⟨_, (mem_fields h).mpr ⟨e, he, .inl rfl⟩, heq⟩
  · exact List.mem_map.mpr
      ⟨_, (mem_fields h).mpr ⟨d, hd, .inr (FieldDefinition.mem_confirmations.mpr ⟨hc, hfree, rfl⟩)⟩,
        rfl⟩

/-- What is asked of the fields that rules emit. -/
structure FieldsOf (rules : RuleEntries) (companions : OrderedMap String) (fs : List Field) :
    Prop where
  /-- No two fields have one name. -/
  nodup : (fs.map (·.name)).Nodup
  /-- The fields under declared names are those of the definitions, in order. -/
  declared : fs.filter (fun f => rules.fieldNames.contains f.name) =
    rules.definitions.map fun d => d.field (companions.get? d.name)
  /-- Any other field was added for a definition that is to be confirmed. -/
  added : ∀ f ∈ fs, f.name ∉ rules.fieldNames →
    ∃ d ∈ rules.definitions, Rule.isConfirmed d.tokens ∧ f.name = d.confirmationName
  /-- Each definition that is to be confirmed has one field under the name of its confirmation. -/
  confirmed : ∀ d ∈ rules.definitions, Rule.isConfirmed d.tokens →
    (fs.map (·.name)).count d.confirmationName = 1
  /-- Unless that name is declared, the field is a copy of the confirmed one, right behind it. -/
  follows : ∀ d ∈ rules.definitions, Rule.isConfirmed d.tokens →
    d.confirmationName ∉ rules.fieldNames →
      ∃ before after, fs = before ++ [d.field (companions.get? d.name),
        { d.field (companions.get? d.name) with name := d.confirmationName }] ++ after

/-- **Confirmations neither repeat nor replace a field**, whether they are declared before or
behind their origin, known by item rules alone, or confirmations of confirmations. -/
theorem fieldsOf_fields (rules : RuleEntries) (companions : OrderedMap String)
    (h : (rules.map Prod.fst).Nodup) : FieldsOf rules companions (rules.fields companions) where
  nodup := nodup_names_fields h
  declared := filter_fields h
  added := by
    intro f hf hfree
    obtain ⟨d, hd, rfl | hconf⟩ := (mem_fields h).mp hf
    · exact absurd (List.mem_map_of_mem hd) hfree
    · obtain ⟨hc, -, rfl⟩ := FieldDefinition.mem_confirmations.mp hconf
      exact ⟨d, hd, hc, rfl⟩
  confirmed := fun _ hd hc =>
    List.count_eq_one_of_mem (nodup_names_fields h) (confirmationName_mem_fields h hd hc)
  follows := fun _ hd hc hfree => exists_fields_eq_append h hd hc hfree

/-- Rules whose confirmations form a chain and are known by item rules alone. -/
def chainedRules : RuleEntries :=
  [(.text "a", .text "confirmed"), (.text "a_confirmation", .text "string|confirmed"),
    (.text "b", .text "required|confirmed"), (.text "b_confirmation.*", .text "integer"),
    (.int 0, .text "required")]

theorem fieldsOf_chainedRules :
    (chainedRules.map Prod.fst).Nodup ∧
      FieldsOf chainedRules .empty (chainedRules.fields .empty) :=
  have h : (chainedRules.map Prod.fst).Nodup := by simp [chainedRules]
  ⟨h, fieldsOf_fields chainedRules .empty h⟩

end RuleEntries

end PayloadTypes
