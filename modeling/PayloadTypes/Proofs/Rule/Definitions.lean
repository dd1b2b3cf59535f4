import Mathlib.Data.List.Perm.Basic
import PayloadTypes.Proofs.Rule.ItemRules
/-!
# The definitions that rules come to

Keys without the suffix define fields in their order, and behind them come the
fields that are known by their item rules alone, in the order of these. What a
definition holds depends on two keys, its name and its name with the suffix, and
not on where they stand (`folded_definitions`). So every token of a key that is a
text is found in one place: among the tokens of the field or of its items
(`perm_placedTokens`).
-/

namespace PayloadTypes

open FieldDefinition

variable {α β : Type} {rules : RuleEntries} {d : FieldDefinition} {name : String}

/-! ## Lookups and order -/

/-- What a list gives back for its members are these members, in their order. -/
theorem map_filterMap_sublist {f : α → Option β} {g : β → α} (h : ∀ a b, f a = some b → g b = a)
    (l : List α) : ((l.filterMap f).map g).Sublist l := by
  have hguard : (fun a => (f a).map g) = Option.guard fun a => (f a).isSome := by
    funext a
    cases hf : f a with
    | none => simp [Option.guard, hf]
    | some b => simp [Option.guard, hf, h a b hf]
  rw [List.map_filterMap, hguard, List.filterMap_eq_filter]
  exact List.filter_sublist

/-- **Looking up every name finds every list under one of them, once.** -/
theorem flatMap_lookup_perm {names : List String} {items : List (String × List α)}
    (hnames : names.Nodup) (hitems : (items.map Prod.fst).Nodup) :
    (names.flatMap fun n => (items.lookup n).getD []).Perm
      ((items.filter fun i => names.contains i.1).flatMap Prod.snd) := by
  induction items with
  | nil => simp
  | cons i items ih =>
    obtain ⟨key, ts⟩ := i
    obtain ⟨hkey, hrest⟩ := List.nodup_cons.mp hitems
    have hother : ∀ ns : List String, key ∉ ns →
        (ns.flatMap fun n => (((key, ts) :: items).lookup n).getD []) =
          ns.flatMap fun n => (items.lookup n).getD [] := by
      intro ns hns
      refine List.flatMap_congr fun n hn => ?_
      have hne : n ≠ key := fun heq => hns (heq ▸ hn)
      rw [List.lookup_cons, beq_eq_false_iff_ne.mpr hne]
    by_cases hmem : key ∈ names
    -- the list stands at the one place of its name, and no other list does
    · obtain ⟨before, after, rfl⟩ := List.append_of_mem hmem
      have hnodup := List.nodup_middle.mp hnames
      have hfree := (List.nodup_cons.mp hnodup).1
      rw [List.mem_append, not_or] at hfree
      have hnone : items.lookup key = none := by
        rw [List.lookup_eq_none_iff]
        intro p hp
        exact bne_iff_ne.mpr fun heq => hkey (List.mem_map.mpr ⟨p, hp, heq.symm⟩)
      have hih := ih hrest
      rw [List.flatMap_append, List.flatMap_cons, hnone, Option.getD_none, List.nil_append] at hih
      rw [List.flatMap_append, List.flatMap_cons, hother before hfree.1, hother after hfree.2,
        List.lookup_cons_self, Option.getD_some,
        List.filter_cons_of_pos (by simp), List.flatMap_cons]
      exact List.perm_append_comm_assoc _ _ _ |>.trans (hih.append_left ts)
    · rw [hother names hmem, List.filter_cons_of_neg (by simpa using hmem)]
      exact ih hrest

namespace RuleEntries

/-! ## Declared definitions and added ones -/

/-- The definitions of the declared fields, with the rules of their items. -/
def ownDefinitions (rules : RuleEntries) : List FieldDefinition :=
  (declared rules).map fun d => { d with itemTokens := (items rules).lookup d.name }

/-- The definitions of the fields that are known by their item rules alone. -/
def addedDefinitions (rules : RuleEntries) : List FieldDefinition :=
  ((items rules).filter fun i => !((declared rules).map (·.name)).contains i.1).map
    fun i => .ofItems i.1 i.2

theorem definitions_eq : rules.definitions = rules.ownDefinitions ++ rules.addedDefinitions := rfl

theorem map_name_ownDefinitions :
    rules.ownDefinitions.map (·.name) = (declared rules).map (·.name) := by
  rw [ownDefinitions, List.map_map]
  rfl

theorem map_name_addedDefinitions :
    rules.addedDefinitions.map (·.name) =
      ((items rules).map Prod.fst).filter
        fun n => !((declared rules).map (·.name)).contains n := by
  rw [addedDefinitions, List.map_map, List.filter_map]
  rfl

theorem mem_declared_iff :
    d ∈ declared rules ↔ ∃ r, (.text d.name, r) ∈ rules ∧ itemParent? d.name = none ∧
      d = .declared d.name r := by
  rw [declared, List.mem_filterMap]
  constructor
  · rintro ⟨⟨v, r⟩, hr, hd⟩
    cases v with
    | text s =>
      simp only [Option.ite_none_left_eq_some, Option.some.injEq] at hd
      obtain ⟨hnone, rfl⟩ := hd
      exact ⟨r, hr, Option.not_isSome_iff_eq_none.mp hnone, rfl⟩
    | _ => cases hd
  · rintro ⟨r, hr, hnone, hd⟩
    exact ⟨_, hr, by simpa [hnone] using hd.symm⟩

/-- The rules of the items are found under the name with the suffix, or there are none. -/
theorem lookup_items_cases (h : (rules.map Prod.fst).Nodup) (name : String) :
    (∃ r, (.text (name ++ ".*"), r) ∈ rules ∧ (items rules).lookup name = some r.tokens) ∨
      .text (name ++ ".*") ∉ rules.map Prod.fst ∧ (items rules).lookup name = none := by
  by_cases hkey : Value.text (name ++ ".*") ∈ rules.map Prod.fst
  · obtain ⟨⟨_, r⟩, hr, rfl⟩ := List.mem_map.mp hkey
    exact .inl ⟨r, hr, lookup_items h hr⟩
  · refine .inr ⟨hkey, ?_⟩
    rw [List.lookup_eq_none_iff]
    intro p hp
    exact bne_iff_ne.mpr fun heq =>
      hkey (mem_names_items.mp (List.mem_map.mpr ⟨p, hp, heq.symm⟩))

/-! ## The places of the tokens -/

/-- The tokens that a definition holds, its own and those of its items. -/
def placedTokens (d : FieldDefinition) : List Rule := d.tokens ++ d.itemTokens.getD []

/-- The tokens of a rule under a key that is a text. -/
def namedTokens (e : Value × Rule) : List Rule :=
  match e.1 with
  | .text _ => e.2.tokens
  | _ => []

/-- The tokens of declared fields and those of items are those of all keys. -/
theorem perm_namedTokens :
    ((declared rules).flatMap (·.tokens) ++ (items rules).flatMap Prod.snd).Perm
      (rules.flatMap namedTokens) := by
  induction rules with
  | nil => exact .nil
  | cons e rules ih =>
    obtain ⟨v, r⟩ := e
    cases v with
    | text s =>
      cases hs : itemParent? s with
      | none =>
        have hown : declared ((.text s, r) :: rules) = .declared s r :: declared rules := by
          simp [declared, hs]
        have hitems : items ((.text s, r) :: rules) = items rules := by
          simp [items, hs]
        rw [hown, hitems, List.flatMap_cons, List.flatMap_cons, List.append_assoc]
        exact ih.append_left r.tokens
      | some parent =>
        have hown : declared ((.text s, r) :: rules) = declared rules := by
          simp [declared, hs]
        have hitems : items ((.text s, r) :: rules) = (parent, r.tokens) :: items rules := by
          simp [items, hs]
        rw [hown, hitems, List.flatMap_cons, List.flatMap_cons]
        exact (List.perm_append_comm_assoc _ _ _).trans (ih.append_left r.tokens)
    | _ => exact ih

/-- **Every token of a key that is a text lands in one place.** -/
theorem perm_placedTokens (h : (rules.map Prod.fst).Nodup) :
    (rules.definitions.flatMap placedTokens).Perm (rules.flatMap namedTokens) := by
  have hnames : ((declared rules).map (·.name)).Nodup := by
    have hall := nodup_fieldNames h
    rw [fieldNames_eq] at hall
    exact hall.of_append_left
  have hown : (rules.ownDefinitions.flatMap placedTokens).Perm
      ((declared rules).flatMap (·.tokens) ++
        ((items rules).filter fun i => ((declared rules).map (·.name)).contains i.1).flatMap
          Prod.snd) := by
    refine List.Perm.trans ?_
      ((flatMap_lookup_perm hnames (nodup_names_items h)).append_left _)
    rw [ownDefinitions, List.flatMap_map, List.flatMap_map]
    exact (List.flatMap_append_perm _ _ _).symm
  have hadded : rules.addedDefinitions.flatMap placedTokens =
      ((items rules).filter fun i => !((declared rules).map (·.name)).contains i.1).flatMap
        Prod.snd := by
    rw [addedDefinitions, List.flatMap_map]
    rfl
  -- Items with a declared parent land in its definition, the others in one that is added.
  have hsplit := List.filter_append_perm
    (fun i : String × List Rule => ((declared rules).map (·.name)).contains i.1) (items rules)
  rw [definitions_eq, List.flatMap_append, hadded]
  refine (hown.append_right _).trans ?_
  rw [List.append_assoc, ← List.flatMap_append]
  exact ((hsplit.flatMap_right _).append_left _).trans perm_namedTokens

/-! ## The definitions -/

/-- What is asked of the definitions that rules come to: `own` of declared fields, `added` behind
them. -/
structure Folded (rules : RuleEntries) (own added : List FieldDefinition) : Prop where
  /-- The declared fields come in the order of their keys. -/
  ownOrder : (own.map fun d => Value.text d.name).Sublist (rules.map Prod.fst)
  /-- They are those of the keys that are texts and do not end in the suffix. -/
  mem_own : ∀ name, name ∈ own.map (·.name) ↔
    .text name ∈ rules.map Prod.fst ∧ ∀ parent, name ≠ parent ++ ".*"
  /-- The added fields come in the order of the keys for their items. -/
  addedOrder : (added.map fun d => Value.text (d.name ++ ".*")).Sublist (rules.map Prod.fst)
  /-- They are those with rules for their items that are not declared. -/
  mem_added : ∀ parent, parent ∈ added.map (·.name) ↔
    .text (parent ++ ".*") ∈ rules.map Prod.fst ∧ parent ∉ own.map (·.name)
  /-- A declared field has the tokens of its rule. -/
  ownTokens : ∀ d ∈ own, ∃ r, (.text d.name, r) ∈ rules ∧ d.tokens = r.tokens
  /-- An added field has no tokens, and neither is it required nor may it be null. -/
  addedTokens : ∀ d ∈ added, d.tokens = [] ∧ d.required = false ∧ d.nullable = false
  /-- The tokens decide whether a field is required: `sometimes` overrides the others. -/
  required : ∀ d ∈ own ++ added, d.required = true ↔
    "sometimes" ∉ Rule.names d.tokens ∧
      ("required" ∈ Rule.names d.tokens ∨ "present" ∈ Rule.names d.tokens)
  /-- The tokens decide whether it may be null. -/
  nullable : ∀ d ∈ own ++ added, d.nullable = true ↔ "nullable" ∈ Rule.names d.tokens
  /-- The tokens for its items are those of the rule under its name with the suffix. -/
  items : ∀ d ∈ own ++ added,
    (∃ r, (.text (d.name ++ ".*"), r) ∈ rules ∧ d.itemTokens = some r.tokens) ∨
      .text (d.name ++ ".*") ∉ rules.map Prod.fst ∧ d.itemTokens = none
  /-- No token is lost, added or moved elsewhere. -/
  placed : ((own ++ added).flatMap placedTokens).Perm (rules.flatMap namedTokens)

theorem exists_of_mem_ownDefinitions (hd : d ∈ rules.ownDefinitions) :
    ∃ r, (.text d.name, r) ∈ rules ∧
      d = { FieldDefinition.declared d.name r with itemTokens := (items rules).lookup d.name } := by
  obtain ⟨e, he, rfl⟩ := List.mem_map.mp hd
  obtain ⟨r, hr, -, heq⟩ := mem_declared_iff.mp he
  exact ⟨r, hr, by rw [heq]; rfl⟩

theorem exists_of_mem_addedDefinitions (hd : d ∈ rules.addedDefinitions) :
    ∃ r, (.text (d.name ++ ".*"), r) ∈ rules ∧ d = .ofItems d.name r.tokens := by
  obtain ⟨⟨parent, ts⟩, hi, rfl⟩ := List.mem_map.mp hd
  obtain ⟨⟨v, r⟩, hr, hparent⟩ := List.mem_filterMap.mp (List.mem_filter.mp hi).1
  cases v with
  | text s =>
    obtain ⟨p, hp, heq⟩ := Option.map_eq_some_iff.mp hparent
    obtain ⟨rfl, rfl⟩ := Prod.mk.inj heq
    exact ⟨r, itemParent?_eq_some_iff.mp hp ▸ hr, rfl⟩
  | _ => cases hparent

/-- The tokens of a field decide its presence; without tokens it is optional and never null. -/
theorem presence_of_mem_definitions (hd : d ∈ rules.definitions) :
    d.required = Rule.isRequired d.tokens ∧ d.nullable = Rule.isNullable d.tokens := by
  rcases List.mem_append.mp (definitions_eq ▸ hd) with hd | hd
  · obtain ⟨r, -, heq⟩ := exists_of_mem_ownDefinitions hd
    rw [heq]
    exact ⟨rfl, rfl⟩
  · obtain ⟨r, -, heq⟩ := exists_of_mem_addedDefinitions hd
    rw [heq]
    exact ⟨rfl, rfl⟩

/-- The item rules of a field are those under its name with the suffix. -/
theorem itemTokens_of_mem_definitions (h : (rules.map Prod.fst).Nodup)
    (hd : d ∈ rules.definitions) :
    (∃ r, (.text (d.name ++ ".*"), r) ∈ rules ∧ d.itemTokens = some r.tokens) ∨
      .text (d.name ++ ".*") ∉ rules.map Prod.fst ∧ d.itemTokens = none := by
  rcases List.mem_append.mp (definitions_eq ▸ hd) with hd | hd
  · obtain ⟨r, -, heq⟩ := exists_of_mem_ownDefinitions hd
    rw [heq]
    exact lookup_items_cases h d.name
  · obtain ⟨r, hr, heq⟩ := exists_of_mem_addedDefinitions hd
    exact .inl ⟨r, hr, by rw [heq]; rfl⟩

/-- The fields that are declared come in the order of their keys. -/
theorem ownDefinitions_sublist :
    (rules.ownDefinitions.map fun d => Value.text d.name).Sublist (rules.map Prod.fst) := by
  have hsub := map_filterMap_sublist (f := declaredName?) (g := Value.text)
    (fun _ _ hn => (eq_text_of_declaredName? hn).symm) (rules.map Prod.fst)
  rwa [← map_name_declared, ← map_name_ownDefinitions, List.map_map] at hsub

/-- The fields that are added come in the order of the keys for their items. -/
theorem addedDefinitions_sublist :
    (rules.addedDefinitions.map fun d => Value.text (d.name ++ ".*")).Sublist
      (rules.map Prod.fst) := by
  have hadded : (rules.addedDefinitions.map (·.name)).Sublist ((items rules).map Prod.fst) := by
    rw [map_name_addedDefinitions]
    exact List.filter_sublist
  have hkeys := map_filterMap_sublist (f := itemsName?) (g := fun n => Value.text (n ++ ".*"))
    (fun _ _ hn => (eq_text_of_itemsName? hn).symm) (rules.map Prod.fst)
  have hsub := hadded.map fun n => Value.text (n ++ ".*")
  rw [List.map_map, map_fst_items] at hsub
  exact hsub.trans hkeys

/-- **Every definition holds the tokens of its own rule and of the rule for its items**, wherever
these stand, and the definitions come in the order of the keys. -/
theorem folded_definitions (rules : RuleEntries) (h : (rules.map Prod.fst).Nodup) :
    ∃ own added, rules.definitions = own ++ added ∧ Folded rules own added := by
  refine ⟨rules.ownDefinitions, rules.addedDefinitions, definitions_eq, ?_⟩
  exact {
    ownOrder := ownDefinitions_sublist
    mem_own := fun name => by
      rw [map_name_ownDefinitions, mem_names_declared, Option.eq_none_iff_forall_ne_some]
      simp only [ne_eq, itemParent?_eq_some_iff]
    addedOrder := addedDefinitions_sublist
    mem_added := fun parent => by
      rw [map_name_addedDefinitions, map_name_ownDefinitions, List.mem_filter, mem_names_items]
      simp [List.contains_eq_mem]
    ownTokens := fun d hd => by
      obtain ⟨r, hr, heq⟩ := exists_of_mem_ownDefinitions hd
      exact ⟨r, hr, by rw [heq]; rfl⟩
    addedTokens := fun d hd => by
      obtain ⟨r, -, heq⟩ := exists_of_mem_addedDefinitions hd
      rw [heq]
      exact ⟨rfl, rfl, rfl⟩
    required := fun d hd => by
      rw [(presence_of_mem_definitions hd).1]
      simp [Rule.isRequired]
    nullable := fun d hd => by
      rw [(presence_of_mem_definitions hd).2]
      simp [Rule.isNullable]
    items := fun _ hd => itemTokens_of_mem_definitions h hd
    placed := perm_placedTokens h }

/-- Rules whose item rules stand in front of their field, behind it, and without one. -/
def interleavedRules : RuleEntries :=
  [(.text "tags.*", .text "string|max:20"), (.text "name", .text "required|nullable"),
    (.text "tags", .list [.text "array", .text "sometimes"]), (.int 3, .text "string"),
    (.text "rows.*.*", .text "integer"), (.text "name.*", .text "email"), (.text ".*", .text "")]

theorem folded_definitions_interleavedRules :
    (interleavedRules.map Prod.fst).Nodup ∧
      ∃ own added, interleavedRules.definitions = own ++ added ∧
        Folded interleavedRules own added :=
  have h : (interleavedRules.map Prod.fst).Nodup := by simp [interleavedRules]
  ⟨h, folded_definitions interleavedRules h⟩

example : interleavedRules.definitions.map (·.name) = ["name", "tags", "rows.*", ""] := by decide

end RuleEntries

end PayloadTypes
