import PayloadTypes.Proofs.Text.Escape
import PayloadTypes.Proofs.Text.Trim
import PayloadTypes.Proofs.Text.Word
/-!
# Joined texts

Texts that are joined by a separator are the pieces of what they are joined to
(`splitOn_intercalate`). Where the pieces are trimmed, blanks at the ends of the
whole do not matter (`map_trim_splitOn_trim`).
-/

namespace PayloadTypes.Text

variable {sep : Char} {w p s a b : List Char} {ps qs : List (List Char)}

/-! ## Joining -/

theorem intercalate_append (hps : ps ≠ []) (hqs : qs ≠ []) (w : List Char) :
    w.intercalate (ps ++ qs) = w.intercalate ps ++ (w ++ w.intercalate qs) := by
  induction ps with
  | nil => exact absurd rfl hps
  | cons p ps ih =>
    cases ps with
    | nil =>
      rw [List.singleton_append, List.intercalate_cons_of_ne_nil hqs, List.intercalate_singleton,
        List.append_assoc]
    | cons r ps =>
      have hrest := ih (List.cons_ne_nil _ _)
      rw [List.cons_append] at hrest
      rw [List.cons_append, List.cons_append, List.intercalate_cons_cons, hrest,
        List.intercalate_cons_cons, List.append_assoc _ (w.intercalate _)]

theorem intercalate_concat (hps : ps ≠ []) (w p : List Char) :
    w.intercalate (ps ++ [p]) = w.intercalate ps ++ (w ++ p) := by
  rw [intercalate_append hps (List.cons_ne_nil _ _), List.intercalate_singleton]

theorem intercalate_concat_append (w p s : List Char) (ps : List (List Char)) :
    w.intercalate (ps ++ [p ++ s]) = w.intercalate (ps ++ [p]) ++ s := by
  cases ps with
  | nil => simp
  | cons q ps =>
    have hne : q :: ps ≠ [] := List.cons_ne_nil _ _
    rw [intercalate_concat hne, intercalate_concat hne, List.append_assoc, List.append_assoc]

/-- The first piece stands in front, and the others behind separators of their own. -/
theorem intercalate_cons (w p : List Char) (ps : List (List Char)) :
    w.intercalate (p :: ps) = p ++ ps.flatMap (w ++ ·) := by
  induction ps generalizing p with
  | nil => rw [List.intercalate_singleton, List.flatMap_nil, List.append_nil]
  | cons q ps ih =>
    rw [List.intercalate_cons_cons, ih, List.flatMap_cons, List.append_assoc, List.append_assoc]

theorem exists_intercalate_cons (sep : Char) (p : List Char) (ps : List (List Char)) :
    ∃ s, [sep].intercalate (p :: ps) = p ++ s ∧ ∀ c ∈ s.head?, c = sep := by
  refine ⟨ps.flatMap ([sep] ++ ·), intercalate_cons _ _ _, ?_⟩
  cases ps with
  | nil => simp
  | cons q ps => simp

theorem mem_intercalate {c : Char} (h : c ∈ w.intercalate ps) : c ∈ w ∨ ∃ p ∈ ps, c ∈ p := by
  cases ps with
  | nil => cases h
  | cons p ps =>
    rw [intercalate_cons, List.mem_append, List.mem_flatMap] at h
    rcases h with h | ⟨q, hq, h⟩
    · exact .inr ⟨p, List.mem_cons_self, h⟩
    · exact (List.mem_append.mp h).imp_right fun h => ⟨q, List.mem_cons_of_mem _ hq, h⟩

/-! ## Splitting -/

theorem splitOn_eq (sep : Char) (s : List Char) : splitOn sep s = s.splitOn sep := by
  induction s with
  | nil => rfl
  | cons c s ih =>
    obtain ⟨p, ps, hps⟩ := List.exists_cons_of_ne_nil (List.splitOn_ne_nil sep s)
    rw [splitOn, List.splitOn_cons_eq_if_modifyHead, ih, hps]
    simp only [beq_iff_eq, List.modifyHead_cons]

/-- **Splitting undoes joining** where the separator stands in no piece. -/
theorem splitOn_intercalate (h : ∀ p ∈ ps, sep ∉ p) (hne : ps ≠ []) :
    splitOn sep ([sep].intercalate ps) = ps := by
  rw [splitOn_eq, List.splitOn_intercalate sep h hne]

theorem splitOn_of_not_mem (h : sep ∉ s) : splitOn sep s = [s] := by
  rw [splitOn_eq, List.splitOn_eq_singleton h]

/-- No piece holds a separator. -/
theorem not_mem_of_mem_splitOn (h : p ∈ splitOn sep s) : sep ∉ p := by
  induction s generalizing p with
  | nil =>
    rw [List.mem_singleton.mp h]
    exact List.not_mem_nil
  | cons c s ih =>
    rw [splitOn] at h
    split at h
    · rcases List.mem_cons.mp h with rfl | h
      · exact List.not_mem_nil
      · exact ih h
    · next hc =>
      split at h
      · rw [List.mem_singleton.mp h]
        exact fun hmem => hc (List.mem_singleton.mp hmem).symm
      · next q qs hs =>
        rw [hs] at ih
        rcases List.mem_cons.mp h with rfl | h
        · exact List.not_mem_cons_of_ne_of_not_mem (Ne.symm hc) (ih List.mem_cons_self)
        · exact ih (List.mem_cons_of_mem _ h)

/-- There is one piece more than there are separators. -/
theorem length_splitOn (sep : Char) (s : List Char) :
    (splitOn sep s).length = s.count sep + 1 := by
  induction s with
  | nil => rfl
  | cons c s ih =>
    by_cases hc : c = sep
    · rw [splitOn, if_pos hc, List.length_cons, ih, hc, List.count_cons_self]
    · rw [splitOn, if_neg hc, List.count_cons_of_ne hc, ← ih]
      cases hs : splitOn sep s with
      | nil =>
        rw [hs] at ih
        cases ih
      | cons p ps => rfl

theorem splitOn_append_cons (s t : List Char) :
    splitOn sep (s ++ sep :: t) = splitOn sep s ++ splitOn sep t := by
  simp only [splitOn_eq, List.splitOn_append_cons_self]

theorem map_trim_splitOn_append_left (hsep : isBlank sep = false) (ha : AllBlank a)
    (s : List Char) : (splitOn sep (a ++ s)).map trim = (splitOn sep s).map trim := by
  by_cases hmem : sep ∈ s
  · obtain ⟨u, v, rfl, hu⟩ := List.eq_append_cons_of_mem hmem
    have hau : sep ∉ a ++ u := List.not_mem_append (not_mem_of_forall ha hsep) hu
    rw [← List.append_assoc, splitOn_append_cons, splitOn_append_cons, splitOn_of_not_mem hau,
      splitOn_of_not_mem hu, List.map_append, List.map_append, List.map_singleton,
      List.map_singleton, trim_append_left ha]
  · have hall : sep ∉ a ++ s := List.not_mem_append (not_mem_of_forall ha hsep) hmem
    rw [splitOn_of_not_mem hmem, splitOn_of_not_mem hall, List.map_singleton, List.map_singleton,
      trim_append_left ha]

theorem map_trim_splitOn_append_right (hsep : isBlank sep = false) (hb : AllBlank b)
    (s : List Char) : (splitOn sep (s ++ b)).map trim = (splitOn sep s).map trim := by
  -- only the piece behind the last separator is another one
  obtain ⟨t, ht, hs⟩ := exists_eq_append_lastPiece sep s
  have hlast := not_mem_lastPiece sep s
  have hpiece : (splitOn sep (lastPiece sep s ++ b)).map trim =
      (splitOn sep (lastPiece sep s)).map trim := by
    have hall : sep ∉ lastPiece sep s ++ b := List.not_mem_append hlast (not_mem_of_forall hb hsep)
    rw [splitOn_of_not_mem hlast, splitOn_of_not_mem hall, List.map_singleton, List.map_singleton,
      trim_append_right hb]
  generalize lastPiece sep s = l at *
  subst hs
  rcases List.eq_nil_or_concat t with rfl | ⟨t, c, rfl⟩
  · exact hpiece
  · rw [List.concat_eq_append] at ht
    obtain rfl : c = sep := ht c List.getLast?_concat
    simp only [List.concat_eq_append, List.append_assoc, List.cons_append, List.nil_append,
      splitOn_append_cons, List.map_append, hpiece]

/-- **Blanks at the ends of a text** are not in its trimmed pieces. -/
theorem map_trim_splitOn_trim (hsep : isBlank sep = false) (s : List Char) :
    (splitOn sep (trim s)).map trim = (splitOn sep s).map trim := by
  obtain ⟨a, b, ha, hb, hs⟩ := exists_eq_trim s
  conv_rhs => rw [hs]
  rw [map_trim_splitOn_append_left hsep ha, map_trim_splitOn_append_right hsep hb]

end PayloadTypes.Text
