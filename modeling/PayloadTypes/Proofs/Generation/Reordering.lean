import PayloadTypes.Generation.Render
import PayloadTypes.Proofs.Data.OrderedMap
import PayloadTypes.Proofs.Generation.Accounting
import PayloadTypes.Proofs.Generation.Reporting
import PayloadTypes.Proofs.Symbols
/-!
# Projects in another order

The order in which a project lists its declarations cannot be seen in what is
generated, as long as no two declarations share a name: the types are sorted by
their names, symbols are a set, and the companion of a resource is found by its
key. Only the skipped declarations are listed in the order of the project
(`render_eq_of_reordered`).
-/

namespace PayloadTypes

variable {p q : Project} {s : Settings}

/-! ## Projects -/

namespace Project

/-- The sections of two projects hold the same entries, in any order. -/
structure Reordered (p q : Project) : Prop where
  /-- The requests are the same. -/
  requests : p.requests.entries.Perm q.requests.entries
  /-- The resources are the same. -/
  resources : p.resources.entries.Perm q.resources.entries
  /-- The collections are the same. -/
  collections : p.collections.entries.Perm q.collections.entries
  /-- The data objects are the same. -/
  data : p.data.entries.Perm q.data.entries
  /-- The enums are the same. -/
  enums : p.enums.entries.Perm q.enums.entries

namespace Reordered

/-- A resource finds its data object by its key. -/
theorem companionTypes_eq (h : p.Reordered q) (r : ResourceDecl) (s : Settings) :
    r.companionTypes p s = r.companionTypes q s := by
  have hget : p.data.get? = q.data.get? := funext (OrderedMap.get?_eq_of_perm h.data)
  rw [ResourceDecl.companionTypes, ResourceDecl.companionTypes, hget]

theorem type?_eq (h : p.Reordered q) (r : ResourceDecl) (s : Settings) :
    r.type? p s = r.type? q s := by
  simp only [ResourceDecl.type?, ResourceDecl.fields?, h.companionTypes_eq]

theorem types_perm (h : p.Reordered q) (s : Settings) : (p.types s).Perm (q.types s) := by
  have hresources : (p.resources.values.filterMap (·.type? p s)).Perm
      (q.resources.values.filterMap (·.type? q s)) := by
    simp only [h.type?_eq]
    exact (h.resources.map _).filterMap _
  have hrequests := ((h.requests.map Prod.snd).filterMap (·.type? s))
  have hcollections := ((h.collections.map Prod.snd).map (·.type s))
  have hdata := ((h.data.map Prod.snd).map (·.type s))
  have henums := ((h.enums.map Prod.snd).map (·.type))
  exact (((hrequests.append hresources).append hcollections).append hdata).append henums

theorem skipped_perm (h : p.Reordered q) (s : Settings) : (p.skipped s).Perm (q.skipped s) := by
  have hresources : (p.resources.values.filter fun r => (r.type? p s).isNone).Perm
      (q.resources.values.filter fun r => (r.type? q s).isNone) := by
    simp only [h.type?_eq]
    exact (h.resources.map _).filter _
  have hrequests := ((h.requests.map Prod.snd).filter fun r => (r.type? s).isNone)
  exact (hrequests.map _).append (hresources.map _)

end Reordered

/-- Distinct names of declarations are distinct names of types. -/
theorem nodup_names_types (hnames : p.names.Nodup) (s : Settings) :
    ((p.types s).map (·.name)).Nodup :=
  ((p.names_append_skipped_perm s).nodup_iff.mpr hnames).of_append_left

/-- **There is one order of types by distinct names.** -/
theorem Reordered.declarations_eq (h : p.Reordered q) (hnames : p.names.Nodup) (s : Settings) :
    (p.generate s).declarations = (q.generate s).declarations := by
  have hp := p.declarations_generate_perm s
  have hq := q.declarations_generate_perm s
  have hperm := (hp.trans (h.types_perm s)).trans hq.symm
  refine hperm.eq_of_pairwise (fun d e hd he hde hed => ?_) (p.pairwise_declarations s)
    (q.pairwise_declarations s)
  have hname : d.name = e.name := by
    rw [comesBefore_iff, String.not_lt] at hde hed
    exact String.le_antisymm hde hed
  exact List.inj_on_of_nodup_map (nodup_names_types hnames s) (hp.mem_iff.mp hd)
    (hp.mem_iff.mp (hperm.mem_iff.mpr he)) hname

theorem Reordered.symbols_eq (h : p.Reordered q) (hnames : p.names.Nodup) (s : Settings) :
    (p.generate s).symbols = (q.generate s).symbols := by
  have hrequests : p.requests.values.Perm q.requests.values := h.requests.map _
  refine Symbols.eq_of_mem_names fun n => ?_
  rw [mem_names_symbols_generate, mem_names_symbols_generate, h.declarations_eq hnames]
  simp only [hrequests.mem_iff]

/-- **Projects that differ in their order alone come to one text**, and leave the same names
unresolved. -/
theorem render_eq_of_reordered (s : Settings) (h : p.Reordered q) (hnames : p.names.Nodup) :
    (p.generate s).render s = (q.generate s).render s ∧
      (p.generate s).unresolved = (q.generate s).unresolved ∧
      (p.generate s).skipped.Perm (q.generate s).skipped := by
  have hdeclarations := h.declarations_eq hnames s
  refine ⟨?_, ?_, h.skipped_perm s⟩
  · rw [Generation.render, Generation.render, Generation.usesEnvelope, Generation.usesEnvelope,
      hdeclarations]
  · rw [Generation.unresolved, Generation.unresolved, Generation.names, Generation.names,
      hdeclarations, h.symbols_eq hnames]

/-- A resource with its data object beside another one and two requests without rules. -/
def orders : Project where
  requests := ⟨[("PayRequest", ⟨"PayRequest", .empty, .empty, none⟩),
    ("ShipRequest", ⟨"ShipRequest", .empty, .empty, none⟩)], by decide⟩
  resources := ⟨[("OrderResource",
    ⟨"OrderResource", "return ['total' => $this->total];", none, none, none⟩)], by decide⟩
  collections := .empty
  data := ⟨[("OrderData", ⟨"OrderData", OrderedMap.empty.insert "total" "?int", none⟩),
    ("ItemData", ⟨"ItemData", .empty, none⟩)], by decide⟩
  enums := .empty

/-- The same, last to first. -/
def ordersReversed : Project where
  requests := ⟨[("ShipRequest", ⟨"ShipRequest", .empty, .empty, none⟩),
    ("PayRequest", ⟨"PayRequest", .empty, .empty, none⟩)], by decide⟩
  resources := orders.resources
  collections := .empty
  data := ⟨[("ItemData", ⟨"ItemData", .empty, none⟩),
    ("OrderData", ⟨"OrderData", OrderedMap.empty.insert "total" "?int", none⟩)], by decide⟩
  enums := .empty

theorem reordered_orders : orders.Reordered ordersReversed where
  requests := List.Perm.swap _ _ _
  resources := List.Perm.refl _
  collections := List.Perm.refl _
  data := List.Perm.swap _ _ _
  enums := List.Perm.refl _

theorem render_orders_eq :
    orders.Reordered ordersReversed ∧ orders.names.Nodup ∧
      (orders.generate .standard).render .standard =
        (ordersReversed.generate .standard).render .standard ∧
      (orders.generate .standard).unresolved = (ordersReversed.generate .standard).unresolved ∧
      (orders.generate .standard).skipped.Perm (ordersReversed.generate .standard).skipped :=
  have hnames : orders.names.Nodup := by decide
  ⟨reordered_orders, hnames, render_eq_of_reordered .standard reordered_orders hnames⟩

end Project

end PayloadTypes
