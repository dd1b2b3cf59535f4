import PayloadTypes.Text.Blank
import PayloadTypes.TypeText.Union
/-!
# Lengths of parts

The parts of a text together are no longer than the text, and each is
shorter than it when there are several. So what goes on with the parts of
a type comes to an end.
-/

namespace PayloadTypes.TypeText

/-- The parts and the separators between them are as long as the text. -/
theorem length_flatten_splitFrom (sep : Char) (st : Scan) (s : List Char) :
    (splitFrom sep st s).flatten.length + (splitFrom sep st s).length = s.length + 1 := by
  induction s generalizing st with
  | nil => rfl
  | cons c s ih =>
    rw [splitFrom]
    split
    · have := ih st
      simp only [List.flatten_cons, List.nil_append, List.length_cons]
      omega
    · have := ih (st.step c)
      split
      · next h => simp only [h, List.flatten_nil, List.length_nil] at this; omega
      · next h =>
        simp only [h, List.flatten_cons, List.length_append, List.length_cons] at this ⊢
        omega

theorem splitFrom_ne_nil (sep : Char) (st : Scan) (s : List Char) : splitFrom sep st s ≠ [] := by
  cases s with
  | nil => simp [splitFrom]
  | cons c s =>
    rw [splitFrom]
    split
    · simp
    · split <;> simp

/-- A part is no longer than the text. -/
theorem length_le_of_mem_splitTopLevel {sep : Char} {s p : List Char}
    (h : p ∈ splitTopLevel sep s) : p.length ≤ s.length := by
  have h1 := length_flatten_splitFrom sep (.plain 0) s
  have h2 := (List.sublist_flatten_of_mem h).length_le
  have h3 := List.length_pos_iff.mpr (splitFrom_ne_nil sep (.plain 0) s)
  simp only [splitTopLevel] at h2
  omega

/-- A part of several is shorter than the text. -/
theorem length_lt_of_mem_splitTopLevel {sep : Char} {s p : List Char}
    (h : p ∈ splitTopLevel sep s) (hs : 1 < (splitTopLevel sep s).length) :
    p.length < s.length := by
  have h1 := length_flatten_splitFrom sep (.plain 0) s
  have h2 := (List.sublist_flatten_of_mem h).length_le
  simp only [splitTopLevel] at h2 hs
  omega

/-- A member of a union of several is shorter than the union. -/
theorem length_lt_of_mem_members {t m : String} (h : m ∈ members t)
    (ht : 1 < (members t).length) : m.toList.length < t.toList.length := by
  simp only [members, List.mem_map, List.mem_filter] at h
  obtain ⟨q, ⟨⟨p, hp, rfl⟩, -⟩, rfl⟩ := h
  have hlen : 1 < (splitTopLevel '|' t.toList).length := by
    refine Nat.lt_of_lt_of_le ht ?_
    simp only [members, List.length_map]
    exact Nat.le_trans (List.length_filter_le ..) (by simp)
  have h1 := length_lt_of_mem_splitTopLevel hp hlen
  have h2 := Text.length_trim_le p
  rw [String.toList_ofList]
  omega

end PayloadTypes.TypeText
