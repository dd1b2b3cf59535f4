import PayloadTypes.Proofs.Source.TypeOutline
import PayloadTypes.Proofs.TypeText.NullMembers
/-!
# Distinct members of declared types

Joining members leaves later duplicates out, but a question mark puts null
behind a type as a whole, whatever its members are. So a type has a member twice
just where a mark stands in front of a type that has null already, or where its
core has (`nodup_members_converted_iff`). The core is what is left without
parentheses and marks; it has distinct members unless a name in it was cut, or
leaves something open (`nodup_members_core`).
-/

namespace PayloadTypes.Source

open TypeText (AreMembers IsClosed Scan arrayOf members null)

/-! ## Enclosed types -/

/-- What stands around a type to enclose it opens one bracket and closes it. -/
theorem exists_around_eq {shape : TypeShape} (h : shape.isEnclosing = true) :
    ∃ front ∈ ["Array<".toList, "Record<string, ".toList],
      ∀ t, (shape.around t).toList = front ++ (t.toList ++ ['>']) := by
  have harray : ∀ t, (arrayOf t).toList = "Array<".toList ++ (t.toList ++ ['>']) := by
    simp [arrayOf]
  cases shape with
  | array item => exact ⟨_, List.mem_cons_self, harray⟩
  | list key value =>
    cases key with
    | none => exact ⟨_, List.mem_cons_self, harray⟩
    | some key =>
      simp only [TypeShape.around]
      split
      · exact ⟨_, List.mem_cons_of_mem _ List.mem_cons_self, by simp⟩
      · exact ⟨_, List.mem_cons_self, harray⟩
  | _ => cases h

/-- A type without a bar of its own has one member at most. -/
theorem nodup_members_of_isPart {t : String} (h : TypeText.IsPart '|' (.plain 0) t.toList) :
    (members t).Nodup := by
  have htexts : TypeText.memberTexts t.toList = _ := TypeText.trimmedParts_of_isPart h
  rw [TypeText.members_eq, htexts]
  split <;> simp

/-- What encloses a type leaves it in one piece, if the type is one inside of brackets. -/
theorem nodup_members_around {shape : TypeShape} {t : String} (hshape : shape.isEnclosing = true)
    (h : TypeText.IsPart '|' (.plain 1) t.toList) : (members (shape.around t)).Nodup := by
  have hfronts : ∀ front ∈ ["Array<".toList, "Record<string, ".toList],
      (Scan.plain 0).after front = .plain 1 ∧ '|' ∉ front := by decide
  obtain ⟨front, hmem, htext⟩ := exists_around_eq hshape
  obtain ⟨hafter, hbar⟩ := hfronts front hmem
  refine nodup_members_of_isPart ?_
  rw [htext, TypeText.isPart_append, TypeText.isPart_append, hafter]
  exact ⟨TypeText.isPart_of_not_mem hbar, h, TypeText.isPart_of_not_mem (by decide)⟩

namespace TypeOutline

/-! ## Marks -/

/-- The types that have a question mark in front of them at the top level, in parentheses or
not. -/
def marked : TypeOutline → List TypeOutline
  | .nullable o => o :: o.marked
  | .inside shape o => if shape.isEnclosing then [] else o.marked
  | .union _ | .generic | .name _ => []

/-- What is left without parentheses and question marks. -/
def core : TypeOutline → TypeOutline
  | .nullable o => o.core
  | .inside shape o => if shape.isEnclosing then .inside shape o else o.core
  | .union os => .union os
  | .generic => .generic
  | .name s => .name s

/-- What null is added to keeps its members apart: it is null alone, or null is no member yet. -/
def TakesNull (o : TypeOutline) : Prop :=
  IsClosed o.converted.type.toList → null ∈ members o.converted.type → o.converted.type = null

/-- **The members of a type are distinct** just where those of its core are and every mark stands
in front of a type that takes null. -/
theorem nodup_members_converted_iff : (o : TypeOutline) →
    ((members o.converted.type).Nodup ↔
      (members o.core.converted.type).Nodup ∧ ∀ p ∈ o.marked, p.TakesNull)
  | .nullable o => by
    rw [converted, Converted.map, core, marked, List.forall_mem_cons,
      TypeText.nodup_members_union_null_iff, nodup_members_converted_iff o, and_assoc,
      and_comm (a := ∀ p ∈ _, _)]
    rfl
  | .inside shape o => by
    rw [core, marked]
    cases hshape : shape.isEnclosing with
    | true => simp
    | false =>
      rw [if_neg (by simp), if_neg (by simp), converted, Converted.map]
      -- A shape that encloses nothing leaves the type in it as it is.
      dsimp only
      rw [around_of_not_isEnclosing _ hshape]
      exact nodup_members_converted_iff o
  | .union _ | .generic | .name _ => by simp [core, marked]

/-! ## Cores -/

/-- Nothing that the type is put together from is cut or left open where it is put together. -/
def IsSettled : TypeOutline → Prop
  | .union os => ∀ m ∈ ((convertedAll os).flatMap fun t => members t.type).dropLast,
      IsClosed m.toList
  | .inside _ o => TypeText.IsPart '|' (.plain 1) o.converted.type.toList
  | .name s => (members (convertName s).type).length ≤ 1
  | _ => True

theorem areMembers_flatMap_members {ts : List Converted}
    (h : ∀ m ∈ (ts.flatMap fun t => members t.type).dropLast, IsClosed m.toList) :
    AreMembers (ts.flatMap fun t => members t.type) where
  isMember m hm := by
    obtain ⟨t, -, hmem⟩ := List.mem_flatMap.mp hm
    exact (TypeText.areMembers_members t.type).isMember m hmem
  isClosed := h

/-- **The members of a settled core are distinct.** -/
theorem nodup_members_core : (o : TypeOutline) → o.core.IsSettled →
    (members o.core.converted.type).Nodup
  | .nullable o, h => nodup_members_core o h
  | .union os, h => by
    have hmembers := (areMembers_flatMap_members h).members_union
    rw [core, converted, Converted.union, hmembers]
    exact TypeText.nodup_eraseDups _
  | .inside shape o, h => by
    rw [core] at h ⊢
    cases hshape : shape.isEnclosing with
    | true =>
      rw [hshape, if_pos rfl] at h
      rw [if_pos rfl]
      exact nodup_members_around hshape h
    | false =>
      rw [hshape, if_neg (by simp)] at h
      rw [if_neg (by simp)]
      exact nodup_members_core o h
  | .generic, _ => by
    rw [core, converted, isMemberUnit_unknown.isMember.members_eq]
    exact List.nodup_singleton _
  | .name s, h => by
    rw [core, converted]
    rcases hms : members (convertName s).type with _ | ⟨m, _ | ⟨m', ms⟩⟩
    · exact List.nodup_nil
    · exact List.nodup_singleton m
    · -- a name that stands for several members is no settled core
      exact absurd h (by simp [core, IsSettled, hms])

/-! ## Whole types -/

theorem isSettled_core : (o : TypeOutline) → o.IsWhole → o.core.IsSettled
  | .nullable o, h => isSettled_core o h
  | .inside shape o, h => by
    rw [core]
    split
    · exact (isTidy_converted o h).1.nested.part '|' 0
    · exact isSettled_core o h
  | .union os, h => fun m hm =>
    ((isMemberUnit_convertedAll os h).1 m (List.dropLast_subset _ hm)).nested.isClosed
  | .generic, _ => trivial
  | .name s, h => by
    rw [core, IsSettled, h.2.isMember.members_eq]
    exact le_rfl

theorem isWhole_of_mem_marked : (o : TypeOutline) → o.IsWhole → ∀ p ∈ o.marked, p.IsWhole
  | .nullable o, h => List.forall_mem_cons.mpr ⟨h, isWhole_of_mem_marked o h⟩
  | .inside shape o, h => by
    rw [marked]
    split
    · exact fun p hp => absurd hp List.not_mem_nil
    · exact isWhole_of_mem_marked o h
  | .union _, _ | .generic, _ | .name _, _ => fun _ hp => absurd hp List.not_mem_nil

/-- A whole type takes null if it does not admit it, or is null alone. -/
theorem takesNull_iff {o : TypeOutline} (h : o.IsWhole) :
    o.TakesNull ↔ (o.admitsNull = true → o.converted.type = null) := by
  obtain ⟨htidy, hnull⟩ := isTidy_converted o h
  rw [TakesNull, hnull, imp_iff_right htidy.nested.isClosed]

/-- **The members of a whole type are distinct** just where no mark stands in front of a type that
admits null, other than null alone. -/
theorem nodup_members_iff_of_isWhole {o : TypeOutline} (h : o.IsWhole) :
    (members o.converted.type).Nodup ↔
      ∀ p ∈ o.marked, p.admitsNull = true → p.converted.type = null := by
  rw [nodup_members_converted_iff, and_iff_right (nodup_members_core o (isSettled_core o h))]
  exact forall₂_congr fun p hp => takesNull_iff (isWhole_of_mem_marked o h p hp)

end TypeOutline

/-! ## Declared types -/

/-- **Of a type as it is written the members are distinct** just where no mark stands in front of a
type that admits null, other than null alone. -/
theorem nodup_members_written_iff (l : Layout) (t : TypeTerm) :
    (members (declaredType false (some (String.ofList (t.text l))))).Nodup ↔
      ∀ p ∈ (declaredOutline (String.ofList (t.text l))).marked,
        p.admitsNull = true → p.converted.type = null := by
  rw [declaredType_eq_converted]
  exact TypeOutline.nodup_members_iff_of_isWhole (t.isWhole_declaredOutline l)

/-- When the members of a declared type are distinct. -/
structure DistinctLaws (t : String) : Prop where
  /-- They are just where those of the core are and every mark stands in front of a type that takes
  null. -/
  exact : (members (declaredType false (some t))).Nodup ↔
    (members (declaredOutline t).core.converted.type).Nodup ∧
      ∀ p ∈ (declaredOutline t).marked, p.TakesNull
  /-- The core has distinct members if it is settled. -/
  settled : (declaredOutline t).core.IsSettled →
    (members (declaredOutline t).core.converted.type).Nodup
  /-- Of a whole type they are just where every mark stands in front of a type that does not admit
  null, or is null alone. -/
  whole : (declaredOutline t).IsWhole →
    ((members (declaredType false (some t))).Nodup ↔
      ∀ p ∈ (declaredOutline t).marked, p.admitsNull = true → p.converted.type = null)

/-- **The laws of distinct members hold of every declared type.** -/
theorem distinctLaws (t : String) : DistinctLaws t := by
  constructor
  · rw [declaredType_eq_converted]
    exact TypeOutline.nodup_members_converted_iff _
  · exact TypeOutline.nodup_members_core _
  · rw [declaredType_eq_converted]
    exact TypeOutline.nodup_members_iff_of_isWhole

/-- An integer or null with a question mark in front has null twice. -/
theorem not_nodup_members_markedUnion :
    ¬ (members (declaredType false (some "?int|null"))).Nodup := by
  have hword : ∀ s : List Char, s ≠ [] → s.all isTermChar = true →
      convert (String.ofList s) = convertName s := by
    intro s hne hall
    have hchars := List.all_eq_true.mp hall
    have hsingle : IsSingle s := ⟨isUnit_of_isTermChar hne hchars, head_ne_of_isTermChar hchars⟩
    exact hsingle.convert_of_name (shape_of_isTermChar hchars)
  have hunion : convert (String.ofList "int|null".toList) = ⟨"number | null", []⟩ := by
    have hmembers : members (String.ofList "int|null".toList) =
        [String.ofList "int".toList, String.ofList "null".toList] := by decide
    rw [convert_of_members (by decide) hmembers (by decide), List.map_cons, List.map_singleton,
      hword _ (by decide) (by decide), hword _ (by decide) (by decide)]
    decide +kernel
  have htrim : Text.trim "?int|null".toList = '?' :: "int|null".toList := by decide
  rw [declaredType, convertDeclared, htrim]
  dsimp only
  rw [convert_nullable, hunion]
  decide

end PayloadTypes.Source
