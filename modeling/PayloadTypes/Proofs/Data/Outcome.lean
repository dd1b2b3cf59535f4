import Mathlib.Data.List.Forall2
/-!
# Outcomes of attempts

An outcome that is mapped is good just if it was good before
(`exists_of_map_eq_ok`), and a list of attempts comes to a list of outcomes just if
each of them succeeds (`mapM_eq_ok_iff`). Where the first success is enough, an
attempt counts unless one in front of it succeeds (`findSome?_cons_eq_or`).
-/

namespace PayloadTypes

variable {α β ε : Type}

/-- A result that is mapped is the image of one. -/
theorem exists_of_map_eq_ok {f : α → β} {r : Except ε α} {b : β} (h : r.map f = .ok b) :
    ∃ a, r = .ok a ∧ f a = b := by
  cases r with
  | error e => cases h
  | ok a => exact ⟨a, rfl, Except.ok.inj h⟩

/-- A fault that is told in another way is a fault as before. -/
theorem mapError_eq_ok_iff {ε' : Type} {f : ε → ε'} {r : Except ε α} {a : α} :
    r.mapError f = .ok a ↔ r = .ok a := by
  cases r with
  | error x => exact ⟨nofun, nofun⟩
  | ok b => exact ⟨fun h => congrArg _ (Except.ok.inj h), fun h => congrArg _ (Except.ok.inj h)⟩

/-- Two attempts in a row succeed just if each of them does. -/
theorem bind_eq_ok_iff {f : α → Except ε β} {r : Except ε α} {b : β} :
    (r >>= f) = .ok b ↔ ∃ a, r = .ok a ∧ f a = .ok b := by
  cases r with
  | error x => exact ⟨nofun, nofun⟩
  | ok a => exact ⟨fun h => ⟨a, rfl, h⟩, fun ⟨_, ha, h⟩ => Except.ok.inj ha ▸ h⟩

/-- **All attempts succeed together**, with one outcome each. -/
theorem mapM_eq_ok_iff {f : α → Except ε β} {l : List α} {bs : List β} :
    l.mapM f = .ok bs ↔ List.Forall₂ (fun a b => f a = .ok b) l bs := by
  induction l generalizing bs with
  | nil =>
    rw [List.forall₂_nil_left_iff]
    exact ⟨fun h => (Except.ok.inj h).symm, fun h => h ▸ rfl⟩
  | cons a l ih =>
    rw [List.mapM_cons, List.forall₂_cons_left_iff]
    cases ha : f a with
    | error e =>
      refine iff_of_false (fun h => nomatch h) ?_
      rintro ⟨b, -, hb, -⟩
      cases hb
    | ok b =>
      cases hl : l.mapM f with
      | error e =>
        refine iff_of_false (fun h => nomatch h) ?_
        rintro ⟨-, cs, -, hcs, -⟩
        cases hl.symm.trans (ih.mpr hcs)
      | ok cs =>
        constructor
        · intro h
          exact ⟨b, cs, rfl, ih.mp hl, (Except.ok.inj h).symm⟩
        · rintro ⟨b', cs', ⟨⟩, hcs', rfl⟩
          cases hl.symm.trans (ih.mpr hcs')
          rfl

/-- Each outcome is that of an attempt. -/
theorem exists_of_mem_of_mapM_eq_ok {f : α → Except ε β} {l : List α} {bs : List β} {b : β}
    (h : l.mapM f = .ok bs) (hb : b ∈ bs) : ∃ a ∈ l, f a = .ok b := by
  obtain ⟨i, hi, rfl⟩ := List.getElem_of_mem hb
  obtain ⟨hlength, hall⟩ := List.forall₂_iff_get.mp (mapM_eq_ok_iff.mp h)
  have hi' : i < l.length := hlength ▸ hi
  exact ⟨l[i], List.getElem_mem hi', hall i hi' hi⟩

theorem findSome?_cons_eq_or (f : α → Option β) (a : α) (l : List α) :
    (a :: l).findSome? f = (f a).or (l.findSome? f) := by
  rw [List.findSome?_cons]
  cases f a <;> rfl

end PayloadTypes
