import Mathlib.Data.List.Basic
import Mathlib.Data.List.TakeWhile
import PayloadTypes.Text.Word
/-!
# Words of a text

The runs of a text are the places that hold characters of one sort only and
have none of that sort beside them (`mem_runs_iff`).
-/

namespace PayloadTypes.Text

variable {p : Char → Bool} {c : Char} {w s t : List Char}

/-! ## Runs in front -/

/-- A text of characters of one sort holds none of another. -/
theorem not_mem_of_forall (h : ∀ x ∈ s, p x = true) (hc : p c = false) : c ∉ s := by
  intro hmem
  rw [h c hmem] at hc
  cases hc

theorem forall_mem_eq_false (h : s.any p = false) : ∀ x ∈ s, p x = false := by
  simpa only [List.any_eq_false, Bool.not_eq_true] using h

theorem forall_mem_getLast?_append {P : Char → Prop} (hs : ∀ c ∈ s.getLast?, P c)
    (ht : ∀ c ∈ t.getLast?, P c) : ∀ c ∈ (s ++ t).getLast?, P c := by
  intro c hc
  rw [List.getLast?_append, Option.mem_def, Option.or_eq_some_iff] at hc
  rcases hc with hc | ⟨-, hc⟩
  · exact ht c hc
  · exact hs c hc

theorem forall_mem_head?_append {P : Char → Prop} (hs : ∀ c ∈ s.head?, P c)
    (ht : ∀ c ∈ t.head?, P c) : ∀ c ∈ (s ++ t).head?, P c := by
  cases s with
  | nil => exact ht
  | cons d s => exact hs

/-- A longest run ends in front of what does not belong to it. -/
theorem takeWhile_append (hw : ∀ c ∈ w, p c = true) (ht : ∀ c ∈ t.head?, p c = false) :
    (w ++ t).takeWhile p = w := by
  have hnone : t.takeWhile p = [] := by
    cases t with
    | nil => rfl
    | cons c t => rw [List.takeWhile_cons_of_neg (by simp [ht c rfl])]
  rw [List.takeWhile_append_of_pos hw, hnone, List.append_nil]

theorem dropWhile_append (hw : ∀ c ∈ w, p c = true) (ht : ∀ c ∈ t.head?, p c = false) :
    (w ++ t).dropWhile p = t := by
  have hall : t.dropWhile p = t := by
    cases t with
    | nil => rfl
    | cons c t => rw [List.dropWhile_cons_of_neg (by simp [ht c rfl])]
  rw [List.dropWhile_append_of_pos hw, hall]

/-- What starts with a run of characters of one sort, and goes on with another one if at all, ends
in the longest such run or takes all of it. -/
theorem prefix_takeWhile_or {v : List Char} (hv : ∀ d ∈ v, p d = true)
    (hw : ∀ d ∈ w.head?, p d = false) (h : v ++ w <+: s) :
    (w = [] ∧ v <+: s.takeWhile p) ∨ (v = s.takeWhile p ∧ w <+: s.dropWhile p) := by
  obtain ⟨t, rfl⟩ := h
  cases w with
  | nil =>
    rw [List.append_nil, List.takeWhile_append_of_pos hv]
    exact .inl ⟨rfl, List.prefix_append _ _⟩
  | cons d w =>
    have hd : ∀ x ∈ (d :: (w ++ t)).head?, p x = false := by simpa using hw
    rw [List.append_assoc, List.cons_append, takeWhile_append hv hd, dropWhile_append hv hd]
    exact .inr ⟨rfl, List.prefix_append _ _⟩

/-! ## All runs -/

theorem runs_cons_of_neg (h : p c = false) (s : List Char) : runs p (c :: s) = runs p s := by
  cases s with
  | nil => simp [runs, h]
  | cons d s => simp [runs, h]

/-- A run goes on as long as its sort of characters does. -/
theorem runs_cons_of_pos (h : p c = true) (s : List Char) :
    runs p (c :: s) = (c :: s.takeWhile p) :: runs p (s.dropWhile p) := by
  induction s generalizing c with
  | nil => simp [runs, h]
  | cons d s ih =>
    rw [runs, if_pos h]
    cases hd : p d with
    | true => simp [ih hd, List.takeWhile_cons_of_pos hd, List.dropWhile_cons_of_pos hd]
    | false =>
      have hneg : ¬ p d = true := by simp [hd]
      rw [List.takeWhile_cons_of_neg hneg, List.dropWhile_cons_of_neg hneg]
      cases runs p (d :: s) <;> simp

/-- Where a text ends with a character of another sort, no run goes on behind it. -/
theorem runs_append (hs : ∀ c ∈ s.getLast?, p c = false) (t : List Char) :
    runs p (s ++ t) = runs p s ++ runs p t := by
  induction s with
  | nil => rfl
  | cons c s ih =>
    cases s with
    | nil =>
      have hc : p c = false := hs c rfl
      rw [List.singleton_append, runs_cons_of_neg hc, runs_cons_of_neg hc, runs, List.nil_append]
    -- Whether a run goes on at the front depends on the two characters there.
    | cons d s =>
      have hrest := ih fun x hx => hs x (by rwa [List.getLast?_cons_cons])
      cases hc : p c with
      | false =>
        rw [List.cons_append, runs_cons_of_neg hc, runs_cons_of_neg hc, hrest]
      | true =>
        rw [List.cons_append] at hrest
        rw [List.cons_append, List.cons_append, runs, if_pos hc, hrest, runs, if_pos hc]
        cases hd : p d with
        | true =>
          rw [runs_cons_of_pos hd]
          rfl
        | false => cases runs p (d :: s) <;> cases runs p t <;> simp

/-- A character of another sort at the end of a text belongs to no run. -/
theorem runs_concat_of_neg (h : p c = false) (s : List Char) :
    runs p (s ++ [c]) = runs p s := by
  induction s with
  | nil => simp [runs, h]
  | cons d s ih =>
    cases s with
    | nil => cases hd : p d <;> simp [runs, h, hd]
    | cons e s =>
      rw [List.cons_append] at ih
      rw [List.cons_append, List.cons_append, runs, runs, ih]

/-- A character of another sort parts the runs. -/
theorem runs_append_cons (h : p c = false) (s t : List Char) :
    runs p (s ++ c :: t) = runs p s ++ runs p t := by
  have hlast : ∀ d ∈ (s ++ [c]).getLast?, p d = false := by simpa using h
  rw [← runs_concat_of_neg h s, ← runs_append hlast, List.append_assoc, List.singleton_append]

/-- In front of texts that start alike a character makes the same of the same runs. -/
theorem runs_cons_congr (hruns : runs p s = runs p t)
    (hhead : (s.head?.any p) = t.head?.any p) (c : Char) :
    runs p (c :: s) = runs p (c :: t) := by
  cases s with
  | nil =>
    cases t with
    | nil => rfl
    | cons d t =>
      have hd : p d = false := by simpa using hhead.symm
      have hnil : runs p (d :: t) = [] := hruns.symm
      simp [runs, hnil]
  | cons d s =>
    cases t with
    | nil =>
      have hnil : runs p (d :: s) = [] := hruns
      simp [runs, hnil]
    | cons e t =>
      have hde : p d = p e := by simpa using hhead
      rw [runs, runs, hruns, hde]

/-- What has one sort of characters in it and none beside it is a run. -/
theorem mem_runs {a b : List Char} (hne : w ≠ []) (hall : ∀ c ∈ w, p c = true)
    (ha : ∀ c ∈ a.getLast?, p c = false) (hb : ∀ c ∈ b.head?, p c = false) :
    w ∈ runs p (a ++ (w ++ b)) := by
  obtain ⟨c, w, rfl⟩ := List.exists_cons_of_ne_nil hne
  obtain ⟨hc, hw⟩ := List.forall_mem_cons.mp hall
  rw [runs_append ha, List.cons_append, runs_cons_of_pos hc, takeWhile_append hw hb]
  exact List.mem_append_right _ List.mem_cons_self

theorem of_mem_runs (h : w ∈ runs p s) :
    w ≠ [] ∧ (∀ c ∈ w, p c = true) ∧ ∃ a b, s = a ++ (w ++ b) ∧
      (∀ c ∈ a.getLast?, p c = false) ∧ ∀ c ∈ b.head?, p c = false := by
  induction hn : s.length using Nat.strongRecOn generalizing s with
  | ind n ih =>
    cases s with
    | nil => cases h
    | cons c s =>
      cases hc : p c with
      | false =>
        rw [runs_cons_of_neg hc] at h
        obtain ⟨hne, hall, a, b, rfl, ha, hb⟩ := ih s.length (by simp [← hn]) h rfl
        have hfront : ∀ d ∈ [c].getLast?, p d = false := by
          rintro d ⟨⟩
          exact hc
        exact ⟨hne, hall, c :: a, b, rfl, forall_mem_getLast?_append hfront ha, hb⟩
      | true =>
        have hhead : ∀ d ∈ (s.dropWhile p).head?, p d = false := by
          intro d hd
          have := List.head?_dropWhile_not p s
          rw [Option.mem_def.mp hd] at this
          simpa using this
        rw [runs_cons_of_pos hc, List.mem_cons] at h
        rcases h with rfl | h
        · refine ⟨List.cons_ne_nil _ _, ?_, [], s.dropWhile p, by simp, by simp, hhead⟩
          exact List.forall_mem_cons.mpr ⟨hc, fun d hd => List.mem_takeWhile_imp hd⟩
        · have hlength : (s.dropWhile p).length < n := by
            have := (List.dropWhile_suffix (l := s) p).length_le
            simp only [← hn, List.length_cons]
            omega
          obtain ⟨hne, hall, a, b, hs, ha, hb⟩ := ih _ hlength h rfl
          -- the run does not start where the first one ends
          have hane : a ≠ [] := by
            rintro rfl
            obtain ⟨d, w, rfl⟩ := List.exists_cons_of_ne_nil hne
            have := hhead d (by rw [hs]; rfl)
            rw [hall d List.mem_cons_self] at this
            cases this
          refine ⟨hne, hall, c :: s.takeWhile p ++ a, b, ?_, ?_, hb⟩
          · rw [List.append_assoc, ← hs, List.cons_append, List.takeWhile_append_dropWhile]
          · rwa [List.getLast?_append_of_ne_nil _ hane]

/-- **The runs of a text** are what has one sort of characters in it and none beside it. -/
theorem mem_runs_iff : w ∈ runs p s ↔
    w ≠ [] ∧ (∀ c ∈ w, p c = true) ∧ ∃ a b, s = a ++ (w ++ b) ∧
      (∀ c ∈ a.getLast?, p c = false) ∧ ∀ c ∈ b.head?, p c = false := by
  refine ⟨of_mem_runs, ?_⟩
  rintro ⟨hne, hall, a, b, rfl, ha, hb⟩
  exact mem_runs hne hall ha hb

end PayloadTypes.Text
