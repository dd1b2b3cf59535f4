import Mathlib.Data.List.Nodup
import PayloadTypes.Proofs.TypeText.Members
/-!
# Null among the members

Taking null off and putting it on work on the text of a type. On its members
they are what their names say: taking off leaves the other members, each where
it first stood (`members_stripNull`), a second time changes nothing
(`stripNull_stripNull`), and behind a closed text putting on adds one member if
null is not there yet (`members_applyNullability`). This holds of texts whose
last member is left open as well, since that member stays the last one.
-/

namespace PayloadTypes.TypeText

variable {t : String} {ms : List String}

/-- The members of a type other than null. -/
def otherMembers (t : String) : List String := (members t).filter (· != null)

theorem null_not_mem_otherMembers (t : String) : null ∉ otherMembers t := by
  simp [otherMembers]

theorem areMembers_otherMembers (t : String) : AreMembers (otherMembers t) :=
  (areMembers_members t).sublist List.filter_sublist

theorem otherMembers_of_not_mem (h : null ∉ members t) : otherMembers t = members t :=
  List.filter_eq_self.mpr fun m hm => by simpa using ne_of_mem_of_not_mem hm h

/-- A type with null and another member has two members at least. -/
theorem two_le_length_members (hnull : null ∈ members t) (hne : otherMembers t ≠ []) :
    2 ≤ (members t).length := by
  obtain ⟨m, hm⟩ := List.exists_mem_of_ne_nil _ hne
  obtain ⟨hmem, hother⟩ := List.mem_filter.mp hm
  match hms : members t with
  | [] => simp [hms] at hmem
  | [x] =>
    rw [hms, List.mem_singleton] at hnull hmem
    simp [hmem, ← hnull] at hother
  | _ :: _ :: _ => simp

/-! ## Taking null off -/

theorem stripNull_of_length_lt (h : (members t).length < 2) : stripNull t = t := by
  rw [stripNull, if_pos h]

theorem stripNull_of_two_le (h : 2 ≤ (members t).length) :
    stripNull t = if otherMembers t = [] then unknown else union (otherMembers t) := by
  rw [stripNull, if_neg (by omega), otherMembers]
  cases (members t).filter (· != null) <;> rfl

/-- **What is left of a union without null**: its other members, each where it first stood. -/
theorem members_stripNull (h : 2 ≤ (members t).length) :
    members (stripNull t) =
      if otherMembers t = [] then [unknown] else (otherMembers t).eraseDups := by
  rw [stripNull_of_two_le h]
  split
  · decide
  · exact (areMembers_otherMembers t).members_union

/-- A union of members other than null is left as it is. -/
theorem stripNull_union (hms : AreMembers ms) (hnull : null ∉ ms) :
    stripNull (union ms) = union ms := by
  have hmembers : members (union ms) = ms.eraseDups := hms.members_union
  have hother : otherMembers (union ms) = ms.eraseDups := by
    rw [otherMembers_of_not_mem, hmembers]
    rwa [hmembers, List.mem_eraseDups]
  rcases Nat.lt_or_ge (members (union ms)).length 2 with hlen | hlen
  · exact stripNull_of_length_lt hlen
  · have hne : ms.eraseDups ≠ [] := by
      intro hnil
      simp [hmembers, hnil] at hlen
    rw [stripNull_of_two_le hlen, hother, if_neg hne, union_eraseDups]

/-- **Null is taken off once.** -/
theorem stripNull_stripNull (t : String) : stripNull (stripNull t) = stripNull t := by
  rcases Nat.lt_or_ge (members t).length 2 with h | h
  · rw [stripNull_of_length_lt h, stripNull_of_length_lt h]
  · rw [stripNull_of_two_le h]
    split
    · decide
    · exact stripNull_union (areMembers_otherMembers t) (null_not_mem_otherMembers t)

/-! ## Putting null on -/

theorem applyNullability_of_mem (h : null ∈ members t) : applyNullability t true = t := by
  simp [applyNullability, hasNull_iff.mpr h]

theorem applyNullability_of_not_mem (h : null ∉ members t) :
    applyNullability t true = t ++ " | " ++ null := by
  simp [applyNullability, hasNull, h]

/-- **Null is added behind the members of a closed type**, unless it is one of them. -/
theorem members_applyNullability (h : IsClosed t.toList) :
    members (applyNullability t true) =
      if null ∈ members t then members t else members t ++ [null] := by
  split
  · next hnull => rw [applyNullability_of_mem hnull]
  · next hnull => rw [applyNullability_of_not_mem hnull, members_append_null h]

theorem otherMembers_applyNullability (h : IsClosed t.toList) :
    otherMembers (applyNullability t true) = otherMembers t := by
  rw [otherMembers, members_applyNullability h]
  split
  · rfl
  · rw [List.filter_append, otherMembers]
    simp

theorem null_mem_members_applyNullability (h : IsClosed t.toList) :
    null ∈ members (applyNullability t true) := by
  rw [members_applyNullability h]
  split
  · assumption
  · exact List.mem_append_right _ List.mem_cons_self

/-- **Null that was put on is taken off again**, and with it what there was of it before. -/
theorem members_stripNull_applyNullability (h : IsClosed t.toList) (hne : otherMembers t ≠ []) :
    members (stripNull (applyNullability t true)) = (otherMembers t).eraseDups := by
  have hother := otherMembers_applyNullability h
  have hlen : 2 ≤ (members (applyNullability t true)).length :=
    two_le_length_members (null_mem_members_applyNullability h) (by rwa [hother])
  rw [members_stripNull hlen, hother, if_neg hne]

/-! ## Null behind a type -/

/-- **Null put behind a type repeats a member** just where the type is closed and has null among
others. -/
theorem nodup_members_union_null_iff (t : String) :
    (members (union [t, null])).Nodup ↔
      (members t).Nodup ∧ (IsClosed t.toList → null ∈ members t → t = null) := by
  by_cases ht : t = null
  · subst ht
    decide
  have hpair : members (union [t, null]) = members (t ++ " | " ++ null) := by rw [union_pair ht]
  by_cases hclosed : IsClosed t.toList
  · rw [hpair, members_append_null hclosed, ← List.concat_eq_append, List.nodup_concat]
    simp [hclosed, ht, and_comm]
  · have htext : (t ++ " | " ++ null).toList = t.toList ++ " | null".toList := by simp [null]
    obtain ⟨ps, p, q, hs, happend, hps, hp, hq⟩ :=
      memberTexts_append_of_not_isClosed hclosed (t := " | null".toList)
        (List.all_eq_true.mp (by decide))
    -- the last member is another one than those in front of it, before and after
    have hlast : ∀ {k}, ¬ IsClosed k →
        (((ps ++ [k]).map String.ofList).Nodup ↔ (ps.map String.ofList).Nodup) := by
      intro k hk
      have hk : String.ofList k ∉ ps.map String.ofList := by
        simpa [String.ofList_inj] using fun hmem => hk (hps k hmem)
      rw [List.map_append, List.map_singleton, ← List.concat_eq_append, List.nodup_concat,
        and_iff_right hk]
    rw [hpair, members_eq, members_eq, htext, hs, happend, hlast hp, hlast hq]
    simp [hclosed]

/-! ## Both -/

/-- What taking null off a type and putting it on do to the members. -/
structure NullLaws (t : String) : Prop where
  /-- Taken off a union of several, it leaves the other members, later duplicates dropped, or the
  unknown type where there are none. -/
  strip : 2 ≤ (members t).length → members (stripNull t) =
    if otherMembers t = [] then [unknown] else (otherMembers t).eraseDups
  /-- Taken off twice, it is taken off. -/
  strip_strip : stripNull (stripNull t) = stripNull t
  /-- Put on a closed text, it is the last member unless it was one before. -/
  apply : IsClosed t.toList → members (applyNullability t true) =
    if null ∈ members t then members t else members t ++ [null]
  /-- Put on a closed text with another member and taken off, it leaves the other members, later
  duplicates dropped. -/
  strip_apply : IsClosed t.toList → otherMembers t ≠ [] →
    members (stripNull (applyNullability t true)) = (otherMembers t).eraseDups

/-- **The laws of null hold of every type text.** -/
theorem nullLaws (t : String) : NullLaws t where
  strip := members_stripNull
  strip_strip := stripNull_stripNull t
  apply := members_applyNullability
  strip_apply := members_stripNull_applyNullability

end PayloadTypes.TypeText
