import Mathlib.Algebra.Group.Nat.Defs
import PayloadTypes.Generation.Render
import PayloadTypes.Proofs.Project.Settling
/-!
# Integers that are written

An integer with more digits than are written ends the run that would write it. So
types are generated just where the values of all enums can be written
(`Project.result_generation_eq_ok_iff`), and an enum is written with its members just
where its own values can be (`TypeDecl.written_eq_ok_iff_of_enum`). Whatever was
generated can be written to a file (`Generation.written_eq_ok`).
-/

namespace PayloadTypes

variable {cases : OrderedMap CaseValue} {d : TypeDecl} {g : Generation} {p : Project}
variable {s : Settings} {native : Bool} {t : String} {v : CaseValue}

/-! ## Values -/

/-- A text, or an integer of no more digits than are written. -/
def CaseValue.Writable : CaseValue → Prop
  | .int i => i.natAbs < 10 ^ longestInteger
  | .text _ => True

theorem isWritableInteger_iff {i : Int} :
    isWritableInteger i = true ↔ i.natAbs < 10 ^ longestInteger := by
  rw [isWritableInteger, decide_eq_true_iff, Text.natDigits]
  exact Nat.length_toDigits_le_iff (by decide) (by decide)

theorem CaseValue.isWritable_iff : v.isWritable = true ↔ v.Writable := by
  cases v with
  | int i => exact isWritableInteger_iff
  | text s => exact iff_of_true rfl trivial

theorem areWritable_iff : areWritable cases = true ↔ ∀ v ∈ cases.values, v.Writable := by
  simp only [areWritable, List.all_eq_true, CaseValue.isWritable_iff]

/-! ## Projects -/

namespace Project

/-- The values of all enums can be written. -/
def Writable (p : Project) : Prop := ∀ e ∈ p.enums.values, ∀ v ∈ e.cases.values, v.Writable

theorem isWritable_iff : p.isWritable = true ↔ p.Writable := by
  simp only [isWritable, List.all_eq_true, areWritable_iff, Writable]

theorem ends_generation_of_writable (h : p.Writable) (s : Settings) :
    (p.generation s).Ends (.ok (p.generate s)) := by
  refine (Noting.ends_forM_note _).bind ?_
  rw [if_pos (isWritable_iff.mpr h)]
  exact (Noting.ends_note _).bind (Noting.ends_pure _)

theorem ends_generation_of_not_writable (h : ¬ p.Writable) (s : Settings) :
    (p.generation s).Ends (.error (.fault (.unreadable .longInteger))) := by
  refine (Noting.ends_forM_note _).bind ?_
  rw [if_neg (mt isWritable_iff.mp h)]
  exact Noting.ends_fault _

/-- **Types are generated just where the values of all enums can be written.** -/
theorem result_generation_eq_ok_iff :
    (p.generation s).result.1 = .ok g ↔ p.Writable ∧ g = p.generate s := by
  by_cases h : p.Writable
  · rw [(ends_generation_of_writable h s).result_eq, Except.ok.injEq, and_iff_right h, eq_comm]
  · rw [(ends_generation_of_not_writable h s).result_eq]
    exact iff_of_false nofun fun hg => h hg.1

/-- The cases of a type are those of an enum, or there are none. -/
theorem areWritable_of_mem_types (h : p.Writable) (hd : d ∈ p.types s) :
    areWritable d.cases = true := by
  simp only [types, List.mem_append, List.mem_filterMap, List.mem_map] at hd
  rcases hd with (((⟨r, -, hr⟩ | ⟨r, -, hr⟩) | ⟨c, -, rfl⟩) | ⟨x, -, rfl⟩) | ⟨e, he, rfl⟩
  · rw [RequestDecl.type?] at hr
    split at hr <;> cases hr
    rfl
  · rw [ResourceDecl.type?] at hr
    split at hr <;> cases hr
    rfl
  · rfl
  · rfl
  · exact areWritable_iff.mpr (h e he)

end Project

/-! ## Texts -/

theorem TypeDecl.written_eq_ok_iff :
    d.written native = .ok t ↔ d.isWritable native = true ∧ d.text native = t := by
  rw [written]
  split
  · next h => rw [Except.ok.injEq, and_iff_right h]
  · next h => exact iff_of_false nofun fun hw => h hw.1

/-- An enum is written with its members just where all its values can be written. -/
theorem TypeDecl.written_eq_ok_iff_of_enum (h : d.kind = .enum) :
    d.written true = .ok t ↔ (∀ v ∈ d.cases.values, v.Writable) ∧ d.text true = t := by
  rw [written_eq_ok_iff, isWritable, h, ← areWritable_iff]
  simp

/-- **What was generated can be written**, under any settings. -/
theorem Generation.written_eq_ok (h : (p.generation s).result.1 = .ok g) (s' : Settings) :
    g.written s' = .ok (g.render s') := by
  obtain ⟨hp, rfl⟩ := Project.result_generation_eq_ok_iff.mp h
  refine if_pos (List.all_eq_true.mpr fun d hd => ?_)
  have hcases := Project.areWritable_of_mem_types hp ((List.mergeSort_perm _ _).mem_iff.mp hd)
  rw [TypeDecl.isWritable, hcases, Bool.or_true]

end PayloadTypes
