import PayloadTypes.CommandLine.Session
import PayloadTypes.Proofs.Generation.Accounting
/-!
# Asking for a declaration

A declaration is asked for by its kind and its name, but looked for by its name
alone: the first one of that name is taken and shown if it is of the kind. Types
of one name stand in the order of their sections, so a kind hides all later ones
under the names that it declares, and requests are hidden by nothing
(`selection_generate`).
-/

namespace PayloadTypes

variable {α : Type} {p : Project} {s : Settings} {g : Generation} {d : TypeDecl}
variable {j k kind : DeclKind} {n name : String}

/-! ## The first of a name -/

/-- **Sorting leaves alone what it may not part**: the elements of which each may stand in front of
each other keep their order. -/
theorem filter_mergeSort {le : α → α → Bool} {q : α → Bool}
    (htrans : ∀ a b c, le a b → le b c → le a c) (htotal : ∀ a b, le a b || le b a)
    (hq : ∀ a b, q a → q b → le a b) (l : List α) : (l.mergeSort le).filter q = l.filter q := by
  have hpairs : (l.filter q).Pairwise (le · ·) := by
    refine List.pairwise_of_forall_mem_list fun a ha b hb => ?_
    exact hq a b (List.mem_filter.mp ha).2 (List.mem_filter.mp hb).2
  have hsub := (List.sublist_mergeSort htrans htotal hpairs List.filter_sublist).filter q
  rw [List.filter_filter] at hsub
  simp only [Bool.and_self] at hsub
  exact (hsub.eq_of_length ((List.mergeSort_perm l le).filter q).length_eq.symm).symm

namespace Project

/-- The types of one name are generated in the order of the project. -/
theorem filter_name_declarations (p : Project) (s : Settings) (n : String) :
    (p.generate s).declarations.filter (·.name == n) = (p.types s).filter (·.name == n) := by
  refine filter_mergeSort ?_ ?_ ?_ _
  · intro a b c hab hbc
    rw [decide_eq_true_eq] at hab hbc ⊢
    exact String.le_trans hab hbc
  · intro a b
    rw [Bool.or_eq_true, decide_eq_true_eq, decide_eq_true_eq]
    exact String.le_total a.name b.name
  · intro a b ha hb
    rw [beq_iff_eq] at ha hb
    have hname : a.name = b.name := ha.trans hb.symm
    exact decide_eq_true (hname ▸ String.le_refl a.name)

/-- The first type of a name is the first one in the order of the sections. -/
theorem get?_generate (p : Project) (s : Settings) (n : String) :
    (p.generate s).get? n =
      DeclKind.all.findSome? fun k => (p.typesOf s k).find? (·.name == n) := by
  rw [Generation.get?, ← List.head?_filter, filter_name_declarations, List.head?_filter,
    types_eq_flatMap, List.find?_flatMap]

end Project

/-! ## Kinds that hide others -/

/-- The kinds whose sections stand in front of that of a kind. -/
def DeclKind.earlier (k : DeclKind) : List DeclKind := DeclKind.all.takeWhile (· != k)

theorem DeclKind.mem_all (k : DeclKind) : k ∈ DeclKind.all := by cases k <;> decide

/-- A type of the kind and the name was generated. -/
def Generation.Declares (g : Generation) (k : DeclKind) (n : String) : Prop :=
  ∃ d ∈ g.declarations, d.name = n ∧ d.kind = k

theorem Project.declares_generate_iff :
    (p.generate s).Declares k n ↔ (p.typesOf s k).find? (·.name == n) ≠ none := by
  rw [ne_eq, List.find?_eq_none, ← filter_types]
  simp only [Generation.Declares, (p.declarations_generate_perm s).mem_iff, List.mem_filter,
    decide_eq_true_eq, beq_iff_eq, not_forall, not_not, exists_prop]
  constructor
  · rintro ⟨d, hd, hn, hk⟩
    exact ⟨d, ⟨hd, hk⟩, hn⟩
  · rintro ⟨d, ⟨hd, hk⟩, hn⟩
    exact ⟨d, hd, hn, hk⟩

/-- What is found kind by kind is of a kind just if it is found there and nowhere in front. -/
theorem exists_findSome?_iff {f : DeclKind → Option TypeDecl}
    (hf : ∀ k d, f k = some d → d.kind = k) (ks : List DeclKind) :
    (∃ d, ks.findSome? f = some d ∧ d.kind = k) ↔
      k ∈ ks ∧ f k ≠ none ∧ ∀ j ∈ ks.takeWhile (· != k), f j = none := by
  induction ks with
  | nil => simp
  | cons j ks ih =>
    rw [List.findSome?_cons, List.takeWhile_cons, List.mem_cons]
    by_cases hjk : j = k
    · subst hjk
      cases hj : f j with
      | some d => simp [hf j d hj]
      | none => simp [ih, hj]
    · cases hj : f j with
      | some d => simp [hf j d hj, hjk, hj]
      | none => simp [ih, hjk, Ne.symm hjk, hj]

namespace Generation

theorem select?_eq_some_iff :
    g.select? kind name = some d ↔ g.get? name = some d ∧ d.kind = kind := by
  rw [select?, Option.filter_eq_some_iff, beq_iff_eq]

/-- What is selected is a type of the kind and the name. -/
theorem of_select? (h : g.select? kind name = some d) :
    d ∈ g.declarations ∧ d.name = name ∧ d.kind = kind := by
  obtain ⟨hget, hkind⟩ := select?_eq_some_iff.mp h
  rw [get?, List.find?_eq_some_iff_append] at hget
  obtain ⟨hname, front, back, hsplit, -⟩ := hget
  exact ⟨hsplit ▸ List.mem_append_right _ List.mem_cons_self, beq_iff_eq.mp hname, hkind⟩

end Generation

/-- **A kind is found where it is declared and no earlier kind is.** -/
theorem Project.exists_select?_generate_iff :
    (∃ d, (p.generate s).select? kind name = some d) ↔
      (p.generate s).Declares kind name ∧ ∀ j ∈ kind.earlier, ¬ (p.generate s).Declares j name := by
  have hkind : ∀ k d, (p.typesOf s k).find? (·.name == name) = some d → d.kind = k :=
    fun k d hd => kind_of_mem_typesOf (List.mem_of_find?_eq_some hd)
  simp only [Generation.select?_eq_some_iff, get?_generate, exists_findSome?_iff hkind,
    declares_generate_iff, kind.mem_all, true_and, not_not]
  rfl

/-! ## The command -/

namespace CommandLine

open Session

variable {β : Type} {x : Context} {cli : Overrides} {st st' : State}

namespace Session

theorem run_bind (m : Session α) (f : α → Session β) (st : State) :
    (m >>= f).run.run st =
      match m.run.run st with
      | (.ok a, st') => (f a).run.run st'
      | (.error e, st') => (.error e, st') := by
  rw [ExceptT.run_bind, StateT.run_bind]
  rcases m.run.run st with ⟨e | a, st'⟩ <;> rfl

end Session

/-- The fields of a declaration as they are shown. -/
def fieldTable (c : Console) (d : TypeDecl) : String :=
  c.table ["Field", "Type", "Optional"] (d.fields.map fun f =>
    [f.name, f.type, if f.optional then "Yes" else ""])

/-- **The fields of what was selected are shown**; where there is nothing, the command ends with
exit code 2. -/
theorem run_runShowFields (h : (runGeneration x cli).run.run st = (.ok (s, g), st')) :
    match g.select? kind name with
    | some d => (runShowFields x kind name cli).run.run st =
        (.ok (), { st' with printed := st'.printed ++ fieldTable x.console d })
    | none => ∃ told, (runShowFields x kind name cli).run.run st =
        (.error (.exit 2), { st' with told := told }) := by
  cases hd : g.select? kind name with
  | some d =>
    rw [runShowFields, run_bind, h]
    simp only [hd]
    rfl
  | none =>
    rw [runShowFields, run_bind, h]
    simp only [hd]
    exact ⟨_, rfl⟩

end CommandLine

/-! ## What is found -/

/-- What comes of asking for the declarations of a name. -/
structure Selection (p : Project) (s : Settings) (name : String) : Prop where
  /-- Whatever is found was generated, with the name and of the kind. -/
  generated : ∀ kind d, (p.generate s).select? kind name = some d →
    d ∈ (p.generate s).declarations ∧ d.name = name ∧ d.kind = kind
  /-- A request is found where one was generated. -/
  requests : (∃ d, (p.generate s).select? .request name = some d) ↔
    (p.generate s).Declares .request name
  /-- A resource is found where one was generated and no request of its name was. -/
  resources : (∃ d, (p.generate s).select? .resource name = some d) ↔
    (p.generate s).Declares .resource name ∧ ¬ (p.generate s).Declares .request name
  /-- The command shows the fields of what is found, or ends with exit code 2. -/
  shown : ∀ kind (x : CommandLine.Context) cli st st',
    (CommandLine.runGeneration x cli).run.run st = (.ok (s, p.generate s), st') →
      match (p.generate s).select? kind name with
      | some d => (CommandLine.runShowFields x kind name cli).run.run st =
          (.ok (), { st' with printed := st'.printed ++ CommandLine.fieldTable x.console d })
      | none => ∃ told, (CommandLine.runShowFields x kind name cli).run.run st =
          (.error (.exit 2), { st' with told := told })

/-- **Every request is found by its name, and a resource just where no request hides it.** -/
theorem selection_generate (p : Project) (s : Settings) (name : String) : Selection p s name where
  generated _ _ := Generation.of_select?
  requests := by
    rw [Project.exists_select?_generate_iff, DeclKind.earlier]
    simp [DeclKind.all]
  resources := by
    rw [Project.exists_select?_generate_iff, DeclKind.earlier]
    simp [DeclKind.all]
  shown _ _ _ _ _ := CommandLine.run_runShowFields

namespace Project

/-- A resource that returns a field. -/
def userResource : ResourceDecl := ⟨"User", "return ['id' => 1];", none, none, none⟩

/-- A request and a resource of one name. -/
def namesakes : Project where
  requests := OrderedMap.empty.insert "User"
    ⟨"User", OrderedMap.empty.insert "name" (.text "required"), .empty, none⟩
  resources := OrderedMap.empty.insert "User" userResource
  collections := .empty
  data := .empty
  enums := .empty

theorem fields?_userResource :
    userResource.fields? namesakes .standard = some [⟨"id", "number", false⟩] := by
  have hcompanions : userResource.companionTypes namesakes .standard = .empty := rfl
  rw [ResourceDecl.fields?, hcompanions]
  decide +kernel

/-- The resource is generated, but the request is taken for it. -/
theorem select?_namesakes_eq_none :
    (namesakes.generate .standard).Declares .resource "User" ∧
      (namesakes.generate .standard).select? .resource "User" = none := by
  have hrequest : (namesakes.generate .standard).Declares .request "User" := by
    rw [declares_generate_iff]
    decide
  have hresource : (namesakes.generate .standard).Declares .resource "User" := by
    have htype : userResource.type? namesakes .standard =
        some (.object "User" .resource [⟨"id", "number", false⟩] true) := by
      rw [ResourceDecl.type?, fields?_userResource]
      rfl
    have htypes : namesakes.typesOf .standard .resource =
        [userResource].filterMap (·.type? namesakes .standard) := rfl
    rw [declares_generate_iff, htypes, List.filterMap_cons, htype]
    decide
  refine ⟨hresource, Option.eq_none_iff_forall_ne_some.mpr fun d hd => ?_⟩
  exact (exists_select?_generate_iff.mp ⟨d, hd⟩).2 .request (by decide) hrequest

end Project

end PayloadTypes
