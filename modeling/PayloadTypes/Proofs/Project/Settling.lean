import Mathlib.Data.List.Basic
import PayloadTypes.Notice
/-!
# Runs that settle

A run settles if it gives a value or ends with a failure of its kind; a fault
is neither. What is read part by part ends at the first part that is refused or
faulty. So it settles just when a refused part stands in front of every faulty
one (`Reads.settles_bind_iff`).
-/

namespace PayloadTypes.Noting

variable {α β ι : Type} {x : Noting α} {f : α → Noting β} {a : α} {e : Error}
  {r : Except Error β} {kind : FailureKind}

/-! ## How runs end -/

/-- The run ends so, whatever has been noted. -/
def Ends (x : Noting α) (r : Except Error α) : Prop := ∀ ns, (x.run.run ns).1 = r

/-- The run gives a value or ends with a failure of the kind, whatever has been noted. -/
def Settles (x : Noting α) (kind : FailureKind) : Prop :=
  ∀ ns, (∃ a, (x.run.run ns).1 = .ok a) ∨
    ∃ f : Failure, f.kind = kind ∧ (x.run.run ns).1 = .error (.failure f)

/-- A run goes on from the value of the one in front of it, if there is one. -/
theorem run_bind (x : Noting α) (f : α → Noting β) (ns : List Notice) :
    (x >>= f).run.run ns =
      match x.run.run ns with
      | (.ok a, ns') => (f a).run.run ns'
      | (.error e, ns') => (.error e, ns') := by
  rw [ExceptT.run_bind, StateT.run_bind]
  rcases x.run.run ns with ⟨e | a, ns'⟩ <;> rfl

theorem ends_pure (a : α) : Ends (pure a) (.ok a) := fun _ => rfl

theorem ends_note (n : Notice) : Ends (note n) (.ok ()) := fun _ => rfl

theorem ends_fail (f : Failure) : Ends (fail f : Noting α) (.error (.failure f)) := fun _ => rfl

theorem ends_fault (f : Fault) : Ends (fault f : Noting α) (.error (.fault f)) := fun _ => rfl

theorem Ends.bind (hx : x.Ends (.ok a)) (hf : (f a).Ends r) : (x >>= f).Ends r := by
  intro ns
  have hns := hx ns
  rw [run_bind]
  rcases hrun : x.run.run ns with ⟨e | b, ns'⟩ <;> rw [hrun] at hns <;> cases hns
  exact hf ns'

/-- Notices alone end nothing. -/
theorem ends_forM_note (ns : List Notice) : Ends (ns.forM note) (.ok ()) := by
  induction ns with
  | nil => exact ends_pure ()
  | cons n ns ih => exact (ends_note n).bind ih

theorem Ends.result_eq {r : Except Error α} (h : x.Ends r) : x.result.1 = r := h []

theorem Ends.bind_error (hx : x.Ends (.error e)) : (x >>= f).Ends (.error e) := by
  intro ns
  have hns := hx ns
  rw [run_bind]
  rcases hrun : x.run.run ns with ⟨e | b, ns'⟩ <;> rw [hrun] at hns <;> cases hns
  rfl

theorem Ends.settles (h : x.Ends (.ok a)) : x.Settles kind := fun ns => .inl ⟨a, h ns⟩

theorem Ends.settles_of_kind {f : Failure} (h : x.Ends (.error (.failure f)))
    (hf : f.kind = kind) : x.Settles kind := fun ns => .inr ⟨f, hf, h ns⟩

/-- A run that ends with a fault does not settle. -/
theorem Ends.not_settles {f : Fault} (h : x.Ends (.error (.fault f))) : ¬ x.Settles kind := by
  intro hx
  rcases hx [] with ⟨a, ha⟩ | ⟨g, -, hg⟩
  · cases (h []).symm.trans ha
  · cases (h []).symm.trans hg

/-! ## Parts -/

/-- What becomes of the parts of some data as they are read. -/
structure Reading (ι : Type) where
  /-- The part is refused: the run ends with a failure. -/
  Refuses : ι → Prop
  /-- The part is faulty: the run ends with a fault. -/
  Faults : ι → Prop
  /-- No part is both. -/
  not_faults : ∀ {p}, Refuses p → ¬ Faults p

namespace Reading

variable {R : Reading ι} {P : ι → Prop} {ps qs : List ι} {l : List α} {g : α → Noting β}

/-- The part is neither refused nor faulty. -/
def Clear (R : Reading ι) (p : ι) : Prop := ¬ R.Refuses p ∧ ¬ R.Faults p

/-- The first part that is not clear is such a one. -/
def StopsAt (R : Reading ι) (P : ι → Prop) (ps : List ι) : Prop :=
  ∃ front p back, ps = front ++ p :: back ∧ (∀ q ∈ front, R.Clear q) ∧ P p

/-- A refused part stands in front of every faulty one. -/
def Guarded (R : Reading ι) (ps : List ι) : Prop :=
  ∀ front p back, ps = front ++ p :: back → R.Faults p → ∃ q ∈ front, R.Refuses q

theorem StopsAt.singleton {p : ι} (hp : P p) : R.StopsAt P [p] :=
  ⟨[], p, [], rfl, fun _ hq => absurd hq List.not_mem_nil, hp⟩

theorem StopsAt.append_right (h : R.StopsAt P ps) (qs : List ι) : R.StopsAt P (ps ++ qs) := by
  obtain ⟨front, p, back, rfl, hfront, hp⟩ := h
  exact ⟨front, p, back ++ qs, by rw [List.append_assoc, List.cons_append], hfront, hp⟩

theorem StopsAt.append_left (hps : ∀ p ∈ ps, R.Clear p) (h : R.StopsAt P qs) :
    R.StopsAt P (ps ++ qs) := by
  obtain ⟨front, p, back, rfl, hfront, hp⟩ := h
  exact ⟨ps ++ front, p, back, (List.append_assoc ..).symm,
    List.forall_mem_append.mpr ⟨hps, hfront⟩, hp⟩

theorem guarded_of_clear (h : ∀ p ∈ ps, R.Clear p) : R.Guarded ps := by
  rintro front p back rfl hp
  exact absurd hp (h p (List.mem_append_right _ List.mem_cons_self)).2

/-- **After a refused part all parts are guarded.** -/
theorem StopsAt.guarded (h : R.StopsAt R.Refuses ps) : R.Guarded ps := by
  obtain ⟨front, q, back, rfl, hfront, hq⟩ := h
  intro front' p back' hsplit hp
  refine ⟨q, ?_, hq⟩
  -- a faulty part in front of the refused one would not be clear
  rcases List.append_eq_append_iff.mp hsplit with ⟨mid, rfl, htail⟩ | ⟨mid, hmid, htail⟩
  · cases mid with
    | nil =>
      cases htail
      exact absurd hp (R.not_faults hq)
    | cons c mid =>
      cases htail
      exact List.mem_append_right _ List.mem_cons_self
  · cases mid with
    | nil =>
      cases htail
      exact absurd hp (R.not_faults hq)
    | cons c mid =>
      cases htail
      exact absurd hp (hfront p (hmid ▸ List.mem_append_right _ List.mem_cons_self)).2

theorem StopsAt.not_guarded (h : R.StopsAt R.Faults ps) : ¬ R.Guarded ps := by
  obtain ⟨front, p, back, rfl, hfront, hp⟩ := h
  intro hguard
  obtain ⟨q, hq, hrefused⟩ := hguard front p back rfl hp
  exact (hfront q hq).1 hrefused

/-- A run that reads parts, in order: it goes on over the clear ones and ends at the first that is
not clear, as it is. -/
inductive Reads (R : Reading ι) (kind : FailureKind) (x : Noting α) (ps : List ι) : Prop
  /-- All parts are clear. -/
  | passes (a : α) : x.Ends (.ok a) → (∀ p ∈ ps, R.Clear p) → R.Reads kind x ps
  /-- One is refused. -/
  | refuses (f : Failure) : f.kind = kind → x.Ends (.error (.failure f)) →
      R.StopsAt R.Refuses ps → R.Reads kind x ps
  /-- One is faulty. -/
  | faults (f : Fault) : x.Ends (.error (.fault f)) → R.StopsAt R.Faults ps → R.Reads kind x ps

theorem reads_pure (a : α) : R.Reads kind (pure a) [] :=
  .passes a (ends_pure a) fun _ hp => absurd hp List.not_mem_nil

theorem Reads.of_clear {p : ι} (h : x.Ends (.ok a)) (hp : R.Clear p) : R.Reads kind x [p] :=
  .passes a h (List.forall_mem_singleton.mpr hp)

/-- A clear part in front does not change what becomes of the others. -/
theorem Reads.cons {p : ι} (hp : R.Clear p) (h : R.Reads kind x ps) : R.Reads kind x (p :: ps) := by
  have hclear : ∀ q ∈ [p], R.Clear q := List.forall_mem_singleton.mpr hp
  cases h with
  | passes a hx hps => exact .passes a hx (List.forall_mem_cons.mpr ⟨hp, hps⟩)
  | refuses f hk hf hstop => exact .refuses f hk hf (hstop.append_left hclear)
  | faults f hf hstop => exact .faults f hf (hstop.append_left hclear)

/-- A run over the parts in front goes on over those that follow. -/
theorem Reads.bind (hx : R.Reads kind x ps) (hf : ∀ a, R.Reads kind (f a) qs) :
    R.Reads kind (x >>= f) (ps ++ qs) := by
  cases hx with
  | passes a hx hclear =>
    cases hf a with
    | passes b hb hclear' =>
      exact .passes b (hx.bind hb) (List.forall_mem_append.mpr ⟨hclear, hclear'⟩)
    | refuses g hk hg hstop => exact .refuses g hk (hx.bind hg) (hstop.append_left hclear)
    | faults g hg hstop => exact .faults g (hx.bind hg) (hstop.append_left hclear)
  | refuses g hk hg hstop => exact .refuses g hk hg.bind_error (hstop.append_right qs)
  | faults g hg hstop => exact .faults g hg.bind_error (hstop.append_right qs)

/-- **A run over a list reads the parts of its items**, one item after the other. -/
theorem reads_mapM {parts : α → List ι} (h : ∀ a ∈ l, R.Reads kind (g a) (parts a)) :
    R.Reads kind (l.mapM g) (l.flatMap parts) := by
  induction l with
  | nil => exact reads_pure []
  | cons a l ih =>
    rw [List.mapM_cons, List.flatMap_cons]
    refine (h a List.mem_cons_self).bind fun b => ?_
    rw [← List.append_nil (l.flatMap parts)]
    exact (ih fun a ha => h a (List.mem_cons_of_mem _ ha)).bind fun bs => reads_pure _

/-- **What goes on from a reading settles** just when a refused part stands in front of every
faulty one. -/
theorem Reads.settles_bind_iff (hx : R.Reads kind x ps) (hf : ∀ a, (f a).Settles kind) :
    (x >>= f).Settles kind ↔ R.Guarded ps := by
  cases hx with
  | passes a hx hclear =>
    refine iff_of_true (fun ns => ?_) (guarded_of_clear hclear)
    have hns := hx ns
    rw [run_bind]
    rcases hrun : x.run.run ns with ⟨e | b, ns'⟩ <;> rw [hrun] at hns <;> cases hns
    exact hf a ns'
  | refuses g hk hg hstop => exact iff_of_true (hg.bind_error.settles_of_kind hk) hstop.guarded
  | faults g hg hstop => exact iff_of_false hg.bind_error.not_settles hstop.not_guarded

end Reading

end PayloadTypes.Noting
