import Mathlib.Data.List.Perm.Basic
import PayloadTypes.Proofs.Generation.Writing
/-!
# What is declared and what is skipped

Every declaration of a project is either declared as a type or skipped, and none
is met twice (`accountedFor_generate`). Only requests and resources are skipped:
a request without rules, since any rule at all leads to a field
(`definitions_eq_nil_iff`), and a resource without fields. So it is in every run that
generates types, and they all do but for integers that cannot be written
(`accounting_generation`).
-/

namespace PayloadTypes

variable {α : Type} {rules : RuleEntries} {s : Settings} {p : Project} {d : TypeDecl}

/-! ## Fields of requests and resources -/

namespace RuleEntries

/-- Every definition gives its field, so only rules without definitions have no fields. -/
theorem fields_eq_nil_iff (companions : OrderedMap String) :
    rules.fields companions = [] ↔ rules.definitions = [] := by
  rw [fields]
  cases rules.definitions with
  | nil => simp [fieldsFrom]
  | cons d ds =>
    simp only [fieldsFrom, FieldDefinition.fields]
    split <;> simp

/-- **Rules under names that are texts define a field**, be it by item rules alone. -/
theorem definitions_eq_nil_iff :
    rules.definitions = [] ↔ ∀ name, Value.text name ∉ rules.map Prod.fst := by
  constructor
  · intro h name hname
    obtain ⟨e, he, hkey⟩ := List.mem_map.mp hname
    obtain ⟨hown, hitems⟩ := List.append_eq_nil_iff.mp h
    rw [List.map_eq_nil_iff] at hown hitems
    rw [hown] at hitems
    simp only [List.map_nil, List.contains_nil, Bool.not_false, List.filter_true] at hitems
    -- a key declares a field or describes the items of one
    cases hparent : itemParent? name with
    | none =>
      have := List.filterMap_eq_nil_iff.mp hown e he
      simp [hkey, hparent] at this
    | some parent =>
      have := List.filterMap_eq_nil_iff.mp hitems e he
      simp [hkey, hparent] at this
  · intro h
    have hnone : ∀ e ∈ rules, ∀ name, e.1 ≠ .text name := fun e he name heq =>
      h name (List.mem_map.mpr ⟨e, he, heq⟩)
    have hown : declared rules = [] := by
      refine List.filterMap_eq_nil_iff.mpr fun e he => ?_
      split
      · next name heq => exact absurd heq (hnone e he name)
      · rfl
    have hitems : items rules = [] := by
      refine List.filterMap_eq_nil_iff.mpr fun e he => ?_
      split
      · next name heq => exact absurd heq (hnone e he name)
      · rfl
    simp [definitions, hown, hitems]

end RuleEntries

namespace RequestDecl

variable {r : RequestDecl}

theorem fields_eq_nil_iff : r.fields s = [] ↔ r.rules.entries = [] := by
  rw [fields, RuleEntries.fields_eq_nil_iff, RuleEntries.definitions_eq_nil_iff, ruleEntries]
  cases r.rules.entries with
  | nil => simp
  | cons e es =>
    refine iff_of_false (fun h => h e.1 ?_) (List.cons_ne_nil _ _)
    simp

/-- What a request becomes. -/
theorem type?_eq_some_iff :
    r.type? s = some d ↔ r.fields s ≠ [] ∧ d = .object r.name .request (r.fields s) false := by
  rw [type?]
  split
  · next h => simp [h]
  · next h => rw [Option.some.injEq, and_iff_right h, eq_comm]

theorem name_of_type? (h : r.type? s = some d) : d.name = r.name := by
  rw [(type?_eq_some_iff.mp h).2]
  rfl

/-- A request is skipped when it has no rules. -/
theorem type?_eq_none_iff : r.type? s = none ↔ r.rules.entries = [] := by
  rw [← fields_eq_nil_iff (s := s), type?]
  split
  · next h => simp [h]
  · next h => simpa using h

end RequestDecl

namespace ResourceDecl

variable {r : ResourceDecl}

/-- The fields of a resource; it has none where no array literal is returned. -/
def fields (r : ResourceDecl) (p : Project) (s : Settings) : List Field :=
  (r.fields? p s).getD []

/-- What a resource becomes. -/
theorem type?_eq_some_iff :
    r.type? p s = some d ↔
      r.fields p s ≠ [] ∧ d = .object r.name .resource (r.fields p s) s.responseAliases := by
  rw [type?, fields]
  split
  · next h => simp [h]
  · next h => simp [h]
  · next hne h =>
    rw [h, Option.getD_some, and_iff_right hne, Option.some.injEq, eq_comm]

theorem name_of_type? (h : r.type? p s = some d) : d.name = r.name := by
  rw [(type?_eq_some_iff.mp h).2]
  rfl

/-- A resource is skipped when it has no fields. -/
theorem type?_eq_none_iff : r.type? p s = none ↔ r.fields p s = [] := by
  rw [type?, fields]
  split
  · next h => simp [h]
  · next h => simp [h]
  · next hne h => simpa [h] using hne

end ResourceDecl

/-! ## Sections and their names -/

/-- The types of a section have the names of the declarations that are not skipped. -/
theorem map_name_filterMap {nameOf : α → String} {f : α → Option TypeDecl}
    (hf : ∀ a d, f a = some d → d.name = nameOf a) (l : List α) :
    (l.filterMap f).map (·.name) = (l.filter fun a => (f a).isSome).map nameOf := by
  induction l with
  | nil => rfl
  | cons a l ih =>
    cases ha : f a with
    | none => simpa [ha] using ih
    | some d => simpa [ha, hf a d ha] using ih

/-- What is declared of a section and what is skipped make up the section. -/
theorem map_name_filterMap_append_perm {nameOf : α → String} {f : α → Option TypeDecl}
    (hf : ∀ a d, f a = some d → d.name = nameOf a) (l : List α) :
    ((l.filterMap f).map (·.name) ++ (l.filter fun a => (f a).isNone).map nameOf).Perm
      (l.map nameOf) := by
  have hnone : (fun a => (f a).isNone) = fun a => !(f a).isSome := by
    funext a
    cases f a <;> rfl
  rw [map_name_filterMap hf, ← List.map_append, hnone]
  exact (List.filter_append_perm _ l).map nameOf

theorem isNone_eq_decide {o : Option α} {q : Prop} [Decidable q] (h : o = none ↔ q) :
    o.isNone = decide q := by
  rw [Bool.eq_iff_iff, Option.isNone_iff_eq_none, h, decide_eq_true_iff]

theorem isSome_eq_decide {o : Option α} {q : Prop} [Decidable q] (h : o = none ↔ q) :
    o.isSome = decide ¬ q := by
  rw [Bool.eq_iff_iff, decide_eq_true_iff, ← h]
  exact Option.isSome_iff_ne_none

namespace Project

/-- The names of the declarations of a kind, in the order of their section. -/
def namesOf (p : Project) : DeclKind → List String
  | .request => p.requests.values.map (·.name)
  | .resource => p.resources.values.map (·.name)
  | .collection => p.collections.values.map (·.name)
  | .data => p.data.values.map (·.name)
  | .enum => p.enums.values.map (·.name)

/-- The names of all declarations, section by section. -/
def names (p : Project) : List String := DeclKind.all.flatMap p.namesOf

/-- The types of the declarations of a kind. -/
def typesOf (p : Project) (s : Settings) : DeclKind → List TypeDecl
  | .request => p.requests.values.filterMap (·.type? s)
  | .resource => p.resources.values.filterMap (·.type? p s)
  | .collection => p.collections.values.map (·.type s)
  | .data => p.data.values.map (·.type s)
  | .enum => p.enums.values.map (·.type)

theorem types_eq_flatMap (p : Project) (s : Settings) :
    p.types s = DeclKind.all.flatMap (p.typesOf s) := by
  simp [types, DeclKind.all, typesOf]

theorem kind_of_mem_typesOf {k : DeclKind} (h : d ∈ p.typesOf s k) : d.kind = k := by
  cases k with
  | request =>
    obtain ⟨r, -, hr⟩ := List.mem_filterMap.mp h
    rw [(RequestDecl.type?_eq_some_iff.mp hr).2]
    rfl
  | resource =>
    obtain ⟨r, -, hr⟩ := List.mem_filterMap.mp h
    rw [(ResourceDecl.type?_eq_some_iff.mp hr).2]
    rfl
  | collection | data | enum =>
    obtain ⟨x, -, rfl⟩ := List.mem_map.mp h
    rfl

/-- The types of a kind are those of its section. -/
theorem filter_types (p : Project) (s : Settings) (k : DeclKind) :
    (p.types s).filter (fun d => d.kind = k) = p.typesOf s k := by
  have hsection : ∀ j, (p.typesOf s j).filter (fun d => d.kind = k) =
      if j = k then p.typesOf s j else [] := by
    intro j
    split
    · next hjk =>
      refine List.filter_eq_self.mpr fun d hd => ?_
      simpa [kind_of_mem_typesOf hd] using hjk
    · next hjk =>
      refine List.filter_eq_nil_iff.mpr fun d hd => ?_
      simpa [kind_of_mem_typesOf hd] using hjk
  rw [types_eq_flatMap, List.filter_flatMap]
  simp only [hsection]
  cases k <;> simp [DeclKind.all]

end Project

/-! ## Accounts -/

/-- The numbers of the characters of a text. -/
def codePoints (t : String) : List ℕ := t.toList.map Char.toNat

/-- At the first place where the texts differ, `a` has the smaller code point or is at its end. -/
def ComesBefore (a b : String) : Prop := List.Lex (· < ·) (codePoints a) (codePoints b)

/-- The order of texts is that of their code points. -/
theorem comesBefore_iff {a b : String} : ComesBefore a b ↔ a < b := by
  have hlex : ∀ x y : List Char,
      List.Lex (· < ·) (x.map Char.toNat) (y.map Char.toNat) ↔ List.Lex (· < ·) x y := by
    intro x
    induction x with
    | nil => intro y; cases y <;> simp
    | cons c x ih =>
      intro y
      cases y with
      | nil => simp
      | cons d y =>
        rw [List.map_cons, List.map_cons, List.cons_lex_cons_iff, List.cons_lex_cons_iff, ih,
          Char.toNat_inj]
        rfl
  exact hlex a.toList b.toList

/-- The names of the generated types of a kind, in order. -/
def Generation.namesOf (g : Generation) (k : DeclKind) : List String :=
  (g.declarations.filter fun d => d.kind = k).map (·.name)

/-- What is asked of the types generated for a project. -/
structure AccountedFor (p : Project) (s : Settings) (g : Generation) : Prop where
  /-- What is declared and what is skipped are all declarations, each as often as it is there. -/
  names : (g.names ++ g.skipped).Perm p.names
  /-- No type stands behind one whose name comes later by its code points. -/
  sorted : g.declarations.Pairwise fun d e => ¬ ComesBefore e.name d.name
  /-- Collections, data objects and enums are all declared. -/
  kept : ∀ k ∈ [DeclKind.collection, .data, .enum], (g.namesOf k).Perm (p.namesOf k)
  /-- The requests with rules are declared. -/
  requests : (g.namesOf .request).Perm
    ((p.requests.values.filter fun r => r.rules.entries ≠ []).map (·.name))
  /-- The resources with fields are declared. -/
  resources : (g.namesOf .resource).Perm
    ((p.resources.values.filter fun r => r.fields p s ≠ []).map (·.name))
  /-- The requests without rules and the resources without fields are skipped, and nothing else. -/
  skipped : g.skipped =
    (p.requests.values.filter fun r => r.rules.entries = []).map (·.name) ++
      (p.resources.values.filter fun r => r.fields p s = []).map (·.name)
  /-- A request or resource that is declared has a field. -/
  fields : ∀ d ∈ g.declarations, d.kind = .request ∨ d.kind = .resource → d.fields ≠ []

namespace Project

theorem declarations_generate_perm (p : Project) (s : Settings) :
    (p.generate s).declarations.Perm (p.types s) := List.mergeSort_perm _ _

theorem pairwise_declarations (p : Project) (s : Settings) :
    (p.generate s).declarations.Pairwise fun d e => ¬ ComesBefore e.name d.name := by
  have htrans : ∀ a b c : TypeDecl, decide (a.name ≤ b.name) → decide (b.name ≤ c.name) →
      decide (a.name ≤ c.name) := by
    intro a b c hab hbc
    rw [decide_eq_true_eq] at hab hbc ⊢
    exact String.le_trans hab hbc
  have htotal : ∀ a b : TypeDecl, decide (a.name ≤ b.name) || decide (b.name ≤ a.name) := by
    intro a b
    rw [Bool.or_eq_true, decide_eq_true_eq, decide_eq_true_eq]
    exact String.le_total a.name b.name
  have hsorted := List.pairwise_mergeSort htrans htotal (p.types s)
  refine hsorted.imp fun {d e} h hlt => ?_
  exact String.not_lt.mpr (of_decide_eq_true h) (comesBefore_iff.mp hlt)

theorem namesOf_perm (p : Project) (s : Settings) (k : DeclKind) :
    ((p.generate s).namesOf k).Perm ((p.typesOf s k).map (·.name)) := by
  rw [← filter_types]
  exact ((p.declarations_generate_perm s).filter _).map _

theorem skipped_eq (p : Project) (s : Settings) :
    p.skipped s = (p.requests.values.filter fun r => r.rules.entries = []).map (·.name) ++
      (p.resources.values.filter fun r => r.fields p s = []).map (·.name) := by
  simp only [skipped, isNone_eq_decide RequestDecl.type?_eq_none_iff,
    isNone_eq_decide ResourceDecl.type?_eq_none_iff]

theorem map_name_typesOf_request (p : Project) (s : Settings) :
    (p.typesOf s .request).map (·.name) =
      (p.requests.values.filter fun r => r.rules.entries ≠ []).map (·.name) := by
  refine (map_name_filterMap (fun _ _ => RequestDecl.name_of_type?) _).trans ?_
  simp only [isSome_eq_decide RequestDecl.type?_eq_none_iff]

theorem map_name_typesOf_resource (p : Project) (s : Settings) :
    (p.typesOf s .resource).map (·.name) =
      (p.resources.values.filter fun r => r.fields p s ≠ []).map (·.name) := by
  refine (map_name_filterMap (fun _ _ => ResourceDecl.name_of_type?) _).trans ?_
  simp only [isSome_eq_decide ResourceDecl.type?_eq_none_iff]

theorem map_name_typesOf_of_kept {k : DeclKind} (hk : k ∈ [DeclKind.collection, .data, .enum]) :
    (p.typesOf s k).map (·.name) = p.namesOf k := by
  simp only [List.mem_cons, List.not_mem_nil, or_false] at hk
  rcases hk with rfl | rfl | rfl <;> exact List.map_map

/-- **What is declared and what is skipped are all declarations.** -/
theorem names_append_skipped_perm (p : Project) (s : Settings) :
    ((p.types s).map (·.name) ++ p.skipped s).Perm p.names := by
  have hreq : ((p.typesOf s .request).map (·.name) ++
      (p.requests.values.filter fun r => (r.type? s).isNone).map (·.name)).Perm
        (p.namesOf .request) :=
    map_name_filterMap_append_perm (fun _ _ => RequestDecl.name_of_type?) _
  have hres : ((p.typesOf s .resource).map (·.name) ++
      (p.resources.values.filter fun r => (r.type? p s).isNone).map (·.name)).Perm
        (p.namesOf .resource) :=
    map_name_filterMap_append_perm (fun _ _ => ResourceDecl.name_of_type?) _
  -- Both sides are sums over the kinds, so it is enough to count each name.
  rw [types_eq_flatMap, names, skipped, List.perm_iff_count]
  intro n
  have hreqn := hreq.count_eq n
  have hresn := hres.count_eq n
  simp only [List.count_append] at hreqn hresn
  simp only [DeclKind.all, List.flatMap_cons, List.flatMap_nil, List.append_nil, List.map_append,
    List.count_append, map_name_typesOf_of_kept (p := p) (s := s) (k := .collection) (by simp),
    map_name_typesOf_of_kept (p := p) (s := s) (k := .data) (by simp),
    map_name_typesOf_of_kept (p := p) (s := s) (k := .enum) (by simp)]
  omega

/-- Requests and resources are declared for their fields. -/
theorem fields_ne_nil_of_mem_types (h : d ∈ p.types s)
    (hk : d.kind = .request ∨ d.kind = .resource) : d.fields ≠ [] := by
  rcases hk with hk | hk
  · have hd : d ∈ p.typesOf s .request := by
      rw [← filter_types]
      exact List.mem_filter.mpr ⟨h, decide_eq_true hk⟩
    obtain ⟨r, -, hr⟩ := List.mem_filterMap.mp hd
    obtain ⟨hne, rfl⟩ := RequestDecl.type?_eq_some_iff.mp hr
    exact hne
  · have hd : d ∈ p.typesOf s .resource := by
      rw [← filter_types]
      exact List.mem_filter.mpr ⟨h, decide_eq_true hk⟩
    obtain ⟨r, -, hr⟩ := List.mem_filterMap.mp hd
    obtain ⟨hne, rfl⟩ := ResourceDecl.type?_eq_some_iff.mp hr
    exact hne

/-- **Every declaration of a project is declared or skipped, and none of them twice.** -/
theorem accountedFor_generate (p : Project) (s : Settings) :
    AccountedFor p s (p.generate s) where
  names := (((p.declarations_generate_perm s).map _).append_right _).trans
    (p.names_append_skipped_perm s)
  sorted := p.pairwise_declarations s
  kept k hk := map_name_typesOf_of_kept (s := s) hk ▸ p.namesOf_perm s k
  requests := p.map_name_typesOf_request s ▸ p.namesOf_perm s .request
  resources := p.map_name_typesOf_resource s ▸ p.namesOf_perm s .resource
  skipped := p.skipped_eq s
  fields _ hd := fields_ne_nil_of_mem_types ((p.declarations_generate_perm s).mem_iff.mp hd)

end Project

/-- How a run ends that generates the types of a project. -/
structure Accounting (p : Project) (s : Settings) : Prop where
  /-- What is generated accounts for the project. -/
  accounted : ∀ g, (p.generation s).result.1 = .ok g → AccountedFor p s g
  /-- Something is generated where the values of all enums can be written. -/
  generated : p.Writable → ∃ g, (p.generation s).result.1 = .ok g
  /-- An integer that is too long to be written is a fault. -/
  ended : ¬ p.Writable → (p.generation s).result.1 = .error (.fault (.unreadable .longInteger))

/-- **A run that generates types loses no declaration of the project**, and every run generates
types unless it meets an integer that is too long. -/
theorem Project.accounting_generation (p : Project) (s : Settings) : Accounting p s where
  accounted g hg := by
    obtain ⟨-, rfl⟩ := result_generation_eq_ok_iff.mp hg
    exact p.accountedFor_generate s
  generated hp := ⟨_, (ends_generation_of_writable hp s).result_eq⟩
  ended hp := (ends_generation_of_not_writable hp s).result_eq

end PayloadTypes
