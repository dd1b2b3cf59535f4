import PayloadTypes.Project.Assembly
import PayloadTypes.Proofs.Data.OrderedMap
import PayloadTypes.Proofs.Project.Settling
/-!
# Projects under their own names

A project is keyed when each declaration stands under the name that it has. The
sources declare every class under its own name and a project put over another
keeps both keyed, so what is read from sources and merged is keyed
(`keyed_project`, `Keyed.merge`). A manifest may give a declaration another name
than its key.
-/

namespace PayloadTypes

variable {α β : Type} {nameOf : α → String} {m n : OrderedMap α} {k : String} {v : α}

/-! ## Keyed maps -/

namespace OrderedMap

/-- Every value stands under its own name. -/
def Keyed (nameOf : α → String) (m : OrderedMap α) : Prop := ∀ e ∈ m.entries, nameOf e.2 = e.1

theorem keyed_empty : (empty : OrderedMap α).Keyed nameOf := fun _ he => absurd he List.not_mem_nil

theorem Keyed.insert (h : m.Keyed nameOf) (hv : nameOf v = k) : (m.insert k v).Keyed nameOf := by
  intro e he
  rcases eq_or_mem_of_mem_putEntry he with rfl | he
  · exact hv
  · exact h e he

theorem Keyed.merge (hm : m.Keyed nameOf) (hn : n.Keyed nameOf) : (m.merge n).Keyed nameOf := by
  have hall : ∀ (es : List (String × α)) (m : OrderedMap α), m.Keyed nameOf →
      (∀ e ∈ es, nameOf e.2 = e.1) → (m.insertAll es).Keyed nameOf := by
    intro es
    induction es with
    | nil => exact fun m hm _ => hm
    | cons e es ih =>
      intro m hm hes
      exact ih _ (hm.insert (hes e List.mem_cons_self))
        fun x hx => hes x (List.mem_cons_of_mem _ hx)
  exact hall n.entries m hm hn

/-- The names of the values of a keyed map are its keys. -/
theorem Keyed.map_values (h : m.Keyed nameOf) : m.values.map nameOf = m.keys := by
  rw [values, keys, List.map_map]
  exact List.map_congr_left h

end OrderedMap

/-! ## Keyed projects -/

namespace Project

variable {t : ClassTable} {p q : Project}

/-- Every declaration stands under its own name. -/
structure Keyed (p : Project) : Prop where
  /-- The requests do. -/
  requests : p.requests.Keyed (·.name)
  /-- The resources do. -/
  resources : p.resources.Keyed (·.name)
  /-- The collections do. -/
  collections : p.collections.Keyed (·.name)
  /-- The data objects do. -/
  data : p.data.Keyed (·.name)
  /-- The enums do. -/
  enums : p.enums.Keyed (·.name)

theorem keyed_empty : empty.Keyed where
  requests := OrderedMap.keyed_empty
  resources := OrderedMap.keyed_empty
  collections := OrderedMap.keyed_empty
  data := OrderedMap.keyed_empty
  enums := OrderedMap.keyed_empty

/-- **Putting one keyed project over another keeps it keyed.** -/
theorem Keyed.merge (hp : p.Keyed) (hq : q.Keyed) : (p.merge q).Keyed where
  requests := hp.requests.merge hq.requests
  resources := hp.resources.merge hq.resources
  collections := hp.collections.merge hq.collections
  data := hp.data.merge hq.data
  enums := hp.enums.merge hq.enums

/-- **Declaring a class keeps a project keyed**, whatever its kind. -/
theorem Keyed.declare {kind : DeclKind} {c : ClassEntry} (hp : p.Keyed)
    (h : p.declare t kind c = .ok q) : q.Keyed := by
  -- A declaration that is made is put under its own name.
  cases kind with
  | request =>
    simp only [Project.declare, ClassTable.requestOf] at h
    cases hr : t.rulesOf c.decl with
    | error f => rw [hr] at h; cases h
    | ok rules =>
      rw [hr] at h
      cases h
      exact { hp with requests := hp.requests.insert rfl }
  | resource =>
    simp only [Project.declare] at h
    cases hr : t.resourceOf? c with
    | none => rw [hr] at h; cases h; exact hp
    | some d =>
      rw [hr] at h
      cases h
      obtain ⟨source, -, rfl⟩ := Option.map_eq_some_iff.mp hr
      exact { hp with resources := hp.resources.insert rfl }
  | collection =>
    cases h
    exact { hp with collections := hp.collections.insert rfl }
  | data =>
    cases h
    exact { hp with data := hp.data.insert rfl }
  | enum =>
    simp only [Project.declare, ClassTable.enumOf] at h
    cases hr : c.decl.cases with
    | error f => rw [hr] at h; cases h
    | ok cases =>
      rw [hr] at h
      cases h
      exact { hp with enums := hp.enums.insert rfl }

end Project

/-! ## Runs over all classes -/

namespace Noting

variable {x : Noting α} {f : α → Noting β} {P : α → Prop} {Q : β → Prop}

/-- Every run that does not fail gives a value with the property. -/
def Gives (x : Noting α) (P : α → Prop) : Prop := ∀ ns a, (x.run.run ns).1 = .ok a → P a

theorem Gives.pure {a : α} (h : P a) : Gives (pure a) P := by
  rintro ns b ⟨⟩
  exact h

/-- A run goes on with what the one in front of it gives. -/
theorem Gives.bind (hx : Gives x P) (hf : ∀ a, P a → Gives (f a) Q) : Gives (x >>= f) Q := by
  intro ns b hb
  rw [run_bind] at hb
  rcases hres : x.run.run ns with ⟨e | a, ns'⟩
  · rw [hres] at hb
    cases hb
  · rw [hres] at hb
    exact hf a (hx ns a (by rw [hres])) ns' b hb

theorem gives_fault (f : Fault) : Gives (fault f) P := by
  rintro ns a ⟨⟩

theorem gives_true (x : Noting α) : Gives x fun _ => True := fun _ _ _ => trivial

/-- A run gives what it gives. -/
theorem gives_self (x : Noting α) : Gives x fun a => ∃ ns, (x.run.run ns).1 = .ok a :=
  fun ns _ ha => ⟨ns, ha⟩

theorem gives_read {r : Except ReadFault α} (h : ∀ a, r = .ok a → P a) : Gives (read r) P := by
  intro ns a ha
  cases r with
  | ok b =>
    obtain rfl := Except.ok.inj ha
    exact h _ rfl
  | error e => cases ha

/-- **What every step keeps is kept by the whole run.** -/
theorem gives_foldlM {g : β → α → Noting β} (hstep : ∀ b a, Q b → Gives (g b a) Q) (l : List α)
    {b : β} (hb : Q b) : Gives (l.foldlM g b) Q := by
  induction l generalizing b with
  | nil => exact Gives.pure hb
  | cons a l ih => exact (hstep b a hb).bind fun _ hb' => ih hb'

end Noting

/-- The project of the classes in a table is keyed. -/
theorem keyed_project (t : ClassTable) : t.project.Gives Project.Keyed := by
  refine Noting.gives_foldlM (fun p d hp => ?_) _ Project.keyed_empty
  exact (Noting.gives_true _).bind fun _ _ => Noting.gives_read fun q hq => hp.declare hq

/-- **What is read from sources is keyed.** -/
theorem keyed_scan (tree : Files.FileTree) (dir : String) (takeIn leaveOut : List String) :
    (scan tree dir takeIn leaveOut).Gives (·.project.Keyed) := by
  unfold scan
  cases Files.discover tree dir takeIn leaveOut with
  | error f => exact Noting.gives_fault _
  | ok paths =>
    refine (Noting.gives_true _).bind fun _ _ => ?_
    refine (keyed_project _).bind fun p hp => ?_
    refine (Noting.gives_true _).bind fun _ _ => ?_
    exact Noting.Gives.pure hp

end PayloadTypes
