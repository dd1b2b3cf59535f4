import PayloadTypes.Proofs.Text.Reader
/-!
# All places where a reader accepts

A search for all places goes on behind what it has found
(`findEachFrom_of_eq_some`), one character further where it finds nothing
(`findEachFrom_of_eq_none`). Each place that it finds was read off the text behind
it (`of_mem_findEach`). Replacing goes over a text the same way
(`replaceFrom_of_eq_some`, `replaceFrom_of_eq_none`).
-/

namespace PayloadTypes.Text.Reader

variable {α : Type} {r : Reader α} {p : Placed α} {prev : Option Char} {c : Char}
variable {s t w seen : List Char} {a : α} {f : Found α}

/-! ## One step of the search -/

theorem findEachFrom_length_append (p : Placed α) (seen w s : List Char) :
    findEachFrom p seen w.length (w ++ s) = findEachFrom p (w.reverse ++ seen) 0 s := by
  induction w generalizing seen with
  | nil => rfl
  | cons c w ih =>
    rw [List.length_cons, List.cons_append, findEachFrom, ih, List.reverse_cons, List.append_assoc,
      List.singleton_append]

/-- **The search goes on behind what it has found.** -/
theorem findEachFrom_of_eq_some (hne : w ≠ []) (h : p seen.head? (w ++ s) = some (a, s)) :
    findEachFrom p seen 0 (w ++ s) =
      ⟨seen.reverse, a, s⟩ :: findEachFrom p (w.reverse ++ seen) 0 s := by
  obtain ⟨c, w, rfl⟩ := List.exists_cons_of_ne_nil hne
  rw [List.cons_append] at h
  have hskip : (w ++ s).length - s.length = w.length := by
    rw [List.length_append, Nat.add_sub_cancel]
  rw [List.cons_append, findEachFrom]
  simp only [h]
  rw [hskip, findEachFrom_length_append, List.reverse_cons, List.append_assoc,
    List.singleton_append]

theorem findEachFrom_of_eq_none (h : p seen.head? (c :: s) = none) :
    findEachFrom p seen 0 (c :: s) = findEachFrom p (c :: seen) 0 s := by
  rw [findEachFrom]
  simp only [h]

/-- Nothing is found where the reader refuses at every place. -/
theorem findEachFrom_eq_nil (h : ∀ prev u v, s = u ++ v → p prev v = none) (seen : List Char) :
    findEachFrom p seen 0 s = [] := by
  induction s generalizing seen with
  | nil => rfl
  | cons c s ih =>
    rw [findEachFrom_of_eq_none (h _ [] (c :: s) rfl)]
    exact ih (fun prev u v hs => h prev (c :: u) v (by rw [hs, List.cons_append])) _

theorem lineStart_eq_some_iff : lineStart r prev s = some (a, t) ↔
    (∀ c ∈ prev, c = '\n') ∧ r s = some (a, t) := by
  cases prev with
  | none => simp [lineStart]
  | some c => by_cases hc : c = '\n' <;> simp [lineStart, hc]

theorem lineStart_eq_none (h : prev = some c) (hc : c ≠ '\n') : lineStart r prev s = none := by
  simp [lineStart, h, hc]

theorem lineStart_eq_none_of (h : r s = none) (prev : Option Char) : lineStart r prev s = none := by
  cases prev <;> simp [lineStart, h]

/-- A search for starts of lines goes over the rest of a line. -/
theorem findEachFrom_lineStart_append (hw : '\n' ∉ w) (hseen : ∃ c ∈ seen.head?, c ≠ '\n')
    (s : List Char) : findEachFrom (lineStart r) seen 0 (w ++ s) =
      findEachFrom (lineStart r) (w.reverse ++ seen) 0 s := by
  induction w generalizing seen with
  | nil => rfl
  | cons c w ih =>
    obtain ⟨d, hd, hne⟩ := hseen
    rw [List.mem_cons, not_or] at hw
    rw [List.cons_append, findEachFrom_of_eq_none (lineStart_eq_none hd hne),
      ih hw.2 ⟨c, rfl, Ne.symm hw.1⟩, List.reverse_cons, List.append_assoc, List.singleton_append]

/-! ## What is found -/

/-- A place that is found was read off the text behind it. -/
theorem of_mem_findEachFrom {skip : Nat} (h : f ∈ findEachFrom p seen skip s) :
    ∃ x u, f.before = seen.reverse ++ x ∧ s = x ++ u ∧
      p f.before.getLast? u = some (f.value, f.after) := by
  induction s generalizing seen skip with
  | nil => cases h
  | cons c s ih =>
    -- where the place is not this one, it is found further on, with `c` in front of it
    have hlater : ∀ {n : Nat}, f ∈ findEachFrom p (c :: seen) n s →
        ∃ x u, f.before = seen.reverse ++ x ∧ c :: s = x ++ u ∧
          p f.before.getLast? u = some (f.value, f.after) := by
      intro n hmem
      obtain ⟨x, u, hbefore, hs, hread⟩ := ih hmem
      refine ⟨c :: x, u, ?_, by rw [hs, List.cons_append], hread⟩
      rw [hbefore, List.reverse_cons, List.append_assoc, List.singleton_append]
    cases skip with
    | succ n => exact hlater h
    | zero =>
      rw [findEachFrom] at h
      split at h
      · next a rest hread =>
        rcases List.mem_cons.mp h with rfl | h
        · refine ⟨[], c :: s, (List.append_nil _).symm, rfl, ?_⟩
          rwa [List.getLast?_reverse]
        · exact hlater h
      · exact hlater h

theorem of_mem_findEach (h : f ∈ findEach p s) :
    ∃ u, s = f.before ++ u ∧ p f.before.getLast? u = some (f.value, f.after) := by
  obtain ⟨x, u, hbefore, hs, hread⟩ := of_mem_findEachFrom h
  exact ⟨u, by rw [hs, hbefore]; rfl, hread⟩

/-! ## Replacing -/

theorem replaceFrom_length_append (p : Placed (List Char)) (prev : Option Char) (w s : List Char) :
    replaceFrom p prev w.length (w ++ s) = replaceFrom p (w.getLast?.or prev) 0 s := by
  induction w generalizing prev with
  | nil => rfl
  | cons c w ih => rw [List.length_cons, List.cons_append, replaceFrom, ih, getLast?_cons_or]

/-- **Replacing goes on behind what it has replaced.** -/
theorem replaceFrom_of_eq_some {p : Placed (List Char)} {new : List Char} (hne : w ≠ [])
    (h : p prev (w ++ s) = some (new, s)) :
    replaceFrom p prev 0 (w ++ s) = new ++ replaceFrom p w.getLast? 0 s := by
  obtain ⟨c, w, rfl⟩ := List.exists_cons_of_ne_nil hne
  rw [List.cons_append] at h
  have hskip : (w ++ s).length - s.length = w.length := by
    rw [List.length_append, Nat.add_sub_cancel]
  rw [List.cons_append, replaceFrom]
  simp only [h]
  rw [hskip, replaceFrom_length_append, ← Option.or_none (o := (c :: w).getLast?), getLast?_cons_or]

theorem replaceFrom_of_eq_none {p : Placed (List Char)} (h : p prev (c :: s) = none) :
    replaceFrom p prev 0 (c :: s) = c :: replaceFrom p (some c) 0 s := by
  rw [replaceFrom]
  simp only [h]

end PayloadTypes.Text.Reader
