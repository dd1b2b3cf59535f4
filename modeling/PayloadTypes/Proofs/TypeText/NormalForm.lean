import PayloadTypes.Proofs.TypeText.Members
/-!
# Normal forms of unions

The members of a type, joined again, are its normal form: bars stand between single
blanks, empty members are gone and so are later duplicates. A text is normal if it
is the union of distinct members (`IsNormal`), a normal text is its own normal form
(`normalForm_eq_self_iff`), and types have one normal form if they have the same
members but for later duplicates (`normalForm_eq_iff`). The last member may be left
open: it stays the last one, since the members in front of it are closed and it is
not. `unionLaws` says so, and which rows of texts are the members of their union.
-/

namespace PayloadTypes.TypeText

open Text (IsTrimmed)

variable {t u : String} {ms : List String}

/-! ## Rows of members -/

/-- **Which rows are the members of their union**, later duplicates left out. -/
theorem members_union_iff : members (union ms) = ms.eraseDups ↔ AreMembers ms.eraseDups := by
  constructor
  · intro h
    rw [← h]
    exact areMembers_members (union ms)
  · intro h
    rw [← union_eraseDups, h.members_union, eraseDups_eq_self (nodup_eraseDups ms)]

/-! ## Normal forms -/

/-- The members of a type, joined again. -/
def normalForm (t : String) : String := union (members t)

/-- The text is the union of distinct members. -/
def IsNormal (t : String) : Prop := ∃ ms, AreMembers ms ∧ ms.Nodup ∧ t = union ms

theorem members_normalForm (t : String) : members (normalForm t) = (members t).eraseDups :=
  (areMembers_members t).members_union

theorem isNormal_normalForm (t : String) : IsNormal (normalForm t) :=
  ⟨(members t).eraseDups, (areMembers_members t).sublist (eraseDups_sublist _),
    nodup_eraseDups _, (union_eraseDups _).symm⟩

theorem IsNormal.normalForm_eq (h : IsNormal t) : normalForm t = t := by
  obtain ⟨ms, hms, hdistinct, rfl⟩ := h
  rw [normalForm, hms.members_union, eraseDups_eq_self hdistinct]

/-- **A text is its own normal form** just where it is normal. -/
theorem normalForm_eq_self_iff : normalForm t = t ↔ IsNormal t :=
  ⟨fun h => h ▸ isNormal_normalForm t, IsNormal.normalForm_eq⟩

/-- **Types have one normal form** just where they have the same members, later duplicates left
out. -/
theorem normalForm_eq_iff :
    normalForm t = normalForm u ↔ (members t).eraseDups = (members u).eraseDups := by
  constructor
  · intro h
    rw [← members_normalForm, h, members_normalForm]
  · intro h
    rw [normalForm, ← union_eraseDups, h, union_eraseDups, normalForm]

/-! ## Both -/

/-- How members are joined to unions and found again. -/
structure UnionLaws : Prop where
  /-- Trimmed texts that are not empty, closed and without a bar of their own are the members of
  their union, later duplicates left out. -/
  members_union : ∀ ms : List String,
    (∀ m ∈ ms, m.toList ≠ [] ∧ IsTrimmed m.toList ∧ IsClosed m.toList ∧
      ∀ a b, m.toList = a ++ '|' :: b → ¬ IsClosed a) →
    members (union ms) = ms.eraseDups
  /-- Without the duplicates, the last one need not be closed, and no other rows are like this. -/
  members_union_iff : ∀ ms, members (union ms) = ms.eraseDups ↔ AreMembers ms.eraseDups
  /-- The members of any text, joined, are joined alike when they are split once more. -/
  union_members : ∀ t, union (members (union (members t))) = union (members t)
  /-- They are those of the text, later duplicates left out. -/
  members_normalForm : ∀ t, members (union (members t)) = (members t).eraseDups
  /-- What comes of it are the unions of distinct members. -/
  union_members_eq_self_iff : ∀ t, union (members t) = t ↔ IsNormal t
  /-- It is the same for texts with the same members, later duplicates left out, and for no
  others. -/
  union_members_eq_iff : ∀ t u,
    union (members t) = union (members u) ↔ (members t).eraseDups = (members u).eraseDups

/-- **The laws of unions.** -/
theorem unionLaws : UnionLaws where
  members_union ms h := by
    have hms : AreMembers ms := by
      refine ⟨fun m hm => ?_, fun m hm => (h m (List.dropLast_subset ms hm)).2.2.1⟩
      obtain ⟨hne, htrimmed, -, hbar⟩ := h m hm
      exact ⟨htrimmed, hne, (isPart_iff (by decide)).mpr hbar⟩
    exact hms.members_union
  members_union_iff _ := TypeText.members_union_iff
  union_members t := (isNormal_normalForm t).normalForm_eq
  members_normalForm := TypeText.members_normalForm
  union_members_eq_self_iff _ := normalForm_eq_self_iff
  union_members_eq_iff _ _ := normalForm_eq_iff

/-- Duplicates are left out, and a member that is left open stays the last one. -/
example : normalForm " 'a|b' | Map<x|y>|'a|b'| <c |d " = "'a|b' | Map<x|y> | <c |d" := by decide

end PayloadTypes.TypeText
