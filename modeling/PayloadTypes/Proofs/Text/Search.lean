import Mathlib.Data.Nat.Find
import PayloadTypes.Proofs.Text.Reader
/-!
# Searching for a word

A search goes over a text in which its reader refuses at every place
(`findFrom?_append`), and what is read first stays the same (`first?_append`).
A word starts within a text when its reader accepts at a place in it, for some
text behind it. A search goes over a text in which the word does not start, if it
may start behind it (`find?_append`), and it stops at the first place where the
word starts (`StartsWithin.exists_first`).
-/

namespace PayloadTypes.Text.Reader

variable {α : Type} {r : Reader α} {p : Placed α} {prev : Option Char} {c d : Char}
variable {s t u v : List Char} {a : α}

/-- The same place with more text in front of it. -/
def Found.behind (t : List Char) (f : Found α) : Found α := { f with before := t ++ f.before }

/-- A search goes over places where the reader refuses. -/
theorem findFrom?_append (h : ∀ u v, t = u ++ v → v ≠ [] → p (u.getLast?.or prev) (v ++ s) = none) :
    findFrom? p prev (t ++ s) = (findFrom? p (t.getLast?.or prev) s).map (Found.behind t) := by
  induction t generalizing prev with
  | nil =>
    have hid : (Found.behind [] : Found α → Found α) = id := rfl
    rw [hid, Option.map_id]
    rfl
  | cons c t ih =>
    have hhere : p prev (c :: (t ++ s)) = none := h [] (c :: t) rfl (List.cons_ne_nil _ _)
    have hrest : ∀ u v, t = u ++ v → v ≠ [] → p (u.getLast?.or (some c)) (v ++ s) = none := by
      intro u v ht hv
      rw [← getLast?_cons_or]
      exact h (c :: u) v (by rw [ht, List.cons_append]) hv
    rw [List.cons_append, findFrom?, hhere, ih hrest, getLast?_cons_or]
    simp only [Option.map_map]
    rfl

/-- Nothing is found where the reader refuses at every place. -/
theorem findFrom?_eq_none (h : ∀ prev u v, s = u ++ v → p prev v = none) (prev : Option Char) :
    findFrom? p prev s = none := by
  induction s generalizing prev with
  | nil => rfl
  | cons c s ih =>
    have hrest := ih fun prev u v hs => h prev (c :: u) v (by rw [hs, List.cons_append])
    rw [findFrom?, h prev [] (c :: s) rfl, hrest]
    rfl

/-- What is found was read off the text behind the place. -/
theorem of_findFrom?_eq_some {f : Found α} (h : findFrom? p prev s = some f) :
    ∃ u, s = f.before ++ u ∧ p (f.before.getLast?.or prev) u = some (f.value, f.after) := by
  induction s generalizing prev f with
  | nil => cases h
  | cons c s ih =>
    rw [findFrom?] at h
    split at h
    · next a rest hread =>
      cases h
      exact ⟨c :: s, rfl, hread⟩
    · obtain ⟨g, hg, rfl⟩ := Option.map_eq_some_iff.mp h
      obtain ⟨u, rfl, hu⟩ := ih hg
      exact ⟨u, rfl, by rwa [getLast?_cons_or]⟩

/-- **More text behind changes nothing for a search** if it changes nothing for the reader up to
the place that is found. -/
theorem findFrom?_append_right {f : Found α} {more : List Char} (h : findFrom? p prev s = some f)
    (hread : ∀ prev u v, s = u ++ v → u.length ≤ f.before.length →
      p prev (v ++ more) = (p prev v).map fun x => (x.1, x.2 ++ more)) :
    findFrom? p prev (s ++ more) = some { f with after := f.after ++ more } := by
  induction s generalizing prev f with
  | nil => cases h
  | cons c s ih =>
    have hhere := hread prev [] (c :: s) rfl (Nat.zero_le _)
    rw [List.cons_append] at hhere
    rw [findFrom?] at h
    rw [List.cons_append, findFrom?, hhere]
    split at h
    · next a rest hfound =>
      cases h
      rw [hfound]
      rfl
    · next hnone =>
      obtain ⟨g, hg, rfl⟩ := Option.map_eq_some_iff.mp h
      have hrest := ih hg fun prev u v hs hlength =>
        hread prev (c :: u) v (by rw [hs, List.cons_append]) (Nat.succ_le_succ hlength)
      rw [hnone, hrest]
      rfl

/-! ## First values -/

/-- What is read at the first place where the reader accepts. -/
def first? (p : Placed α) (s : List Char) : Option α := (find? p s).map Found.value

theorem first?_of_start (hne : s ≠ []) (h : p none s = some (a, t)) : first? p s = some a := by
  rw [first?, find?_of_start hne h]
  rfl

theorem first?_eq_none (h : ∀ prev u v, s = u ++ v → p prev v = none) : first? p s = none := by
  rw [first?, find?, findFrom?_eq_none h]
  rfl

theorem findFrom?_anywhere (r : Reader α) (prev : Option Char) (s : List Char) :
    findFrom? (anywhere r) prev s = find? (anywhere r) s := by
  cases s <;> rfl

/-- What is read behind places where the reader refuses. -/
theorem first?_append (h : ∀ u v, t = u ++ v → v ≠ [] → r (v ++ s) = none) :
    first? (anywhere r) (t ++ s) = first? (anywhere r) s := by
  rw [first?, first?, find?, findFrom?_append h, findFrom?_anywhere]
  simp only [Option.map_map]
  rfl

theorem first?_cons (h : r (c :: s) = none) :
    first? (anywhere r) (c :: s) = first? (anywhere r) s := by
  refine first?_append (t := [c]) fun u v ht hv => ?_
  obtain ⟨d, v, rfl⟩ := List.exists_cons_of_ne_nil hv
  cases u with
  | nil =>
    cases ht
    exact h
  | cons e u => simp at ht

/-- The reader accepts nothing that starts with another character. -/
def StartsWith (r : Reader α) (d : Char) : Prop := ∀ c s, c ≠ d → r (c :: s) = none

theorem startsWith_text_bind {β : Type} {w : String} (hw : w.toList.head? = some d)
    (f : Unit → Reader β) : StartsWith (text w >>= f) d :=
  fun _ _ hc => bind_eq_none (text_eq_none hw hc.symm _)

namespace StartsWith

/-- A search goes over a text without the character that is asked for first. -/
theorem first?_append (h : StartsWith r d) (ht : d ∉ t) (s : List Char) :
    first? (anywhere r) (t ++ s) = first? (anywhere r) s := by
  refine Reader.first?_append fun u v heq hv => ?_
  obtain ⟨c, v, rfl⟩ := List.exists_cons_of_ne_nil hv
  refine h c (v ++ s) ?_
  rintro rfl
  exact ht (heq ▸ List.mem_append_right u List.mem_cons_self)

theorem first?_eq_none (h : StartsWith r d) (hs : d ∉ s) : first? (anywhere r) s = none := by
  rw [← List.append_nil s, h.first?_append hs]
  rfl

end StartsWith

/-! ## Words -/

theorem wordStart_eq_ite (r : Reader α) (prev : Option Char) (s : List Char) :
    wordStart r prev s = if prev.any isWord then none else r s := by
  cases prev <;> rfl

theorem wordStart_eq_none_of (h : r s = none) (prev : Option Char) : wordStart r prev s = none := by
  rw [wordStart_eq_ite, h, ite_self]

/-- No word reaches to the place behind the text. -/
def EndsWord (s : List Char) : Prop := ∀ c ∈ s.getLast?, isWord c = false

theorem wordStart_of_endsWord (h : EndsWord u) (s : List Char) :
    wordStart r (u.getLast?.or none) s = r s := by
  rw [Option.or_none]
  cases hlast : u.getLast? with
  | none => rfl
  | some c => simp [wordStart, h c hlast]

theorem wordStart_eq_none (h : ¬ EndsWord u) (s : List Char) :
    wordStart r (u.getLast?.or none) s = none := by
  simp only [EndsWord, not_forall, Bool.not_eq_false] at h
  obtain ⟨c, hlast, hc⟩ := h
  rw [Option.mem_def.mp hlast]
  simp [wordStart, hc]

/-- A word that `r` accepts starts in the text, for some text behind it. -/
def StartsWithin (r : Reader α) (s : List Char) : Prop :=
  ∃ u v t, s = u ++ v ∧ v ≠ [] ∧ EndsWord u ∧ (r (v ++ t)).isSome

/-- A search for a word goes over the places that are not accepted. -/
theorem find?_wordStart_append
    (h : ∀ u v, t = u ++ v → v ≠ [] → EndsWord u → r (v ++ s) = none) :
    find? (wordStart r) (t ++ s) =
      (findFrom? (wordStart r) (t.getLast?.or none) s).map (Found.behind t) := by
  refine findFrom?_append fun u v ht hv => ?_
  by_cases hu : EndsWord u
  · rw [wordStart_of_endsWord hu]
    exact h u v ht hv hu
  · exact wordStart_eq_none hu _

/-- **A search goes over a text in which the word does not start.** -/
theorem find?_append (h : ¬ StartsWithin r t) (ht : EndsWord t) (s : List Char) :
    find? (wordStart r) (t ++ s) = (find? (wordStart r) s).map (Found.behind t) := by
  have hnone : ∀ u v, t = u ++ v → v ≠ [] → EndsWord u → r (v ++ s) = none := by
    intro u v heq hv hu
    rw [← Option.not_isSome_iff_eq_none]
    exact fun hsome => h ⟨u, v, s, heq, hv, hu, hsome⟩
  rw [find?_wordStart_append hnone]
  cases s with
  | nil => rfl
  | cons c s =>
    rw [find?, findFrom?, findFrom?, wordStart_of_endsWord ht]
    rfl

theorem first?_wordStart_append (h : ¬ StartsWithin r t) (ht : EndsWord t) (s : List Char) :
    first? (wordStart r) (t ++ s) = first? (wordStart r) s := by
  rw [first?, first?, find?_append h ht, Option.map_map]
  rfl

theorem find?_eq_none (h : ¬ StartsWithin r s) : find? (wordStart r) s = none := by
  have hnone : ∀ u v, s = u ++ v → v ≠ [] → EndsWord u → r (v ++ []) = none := by
    intro u v heq hv hu
    rw [← Option.not_isSome_iff_eq_none]
    exact fun hsome => h ⟨u, v, [], heq, hv, hu, hsome⟩
  have := find?_wordStart_append hnone
  rw [List.append_nil] at this
  rw [this]
  rfl

/-- A word starts with its first character. -/
theorem not_startsWithin (hr : ∀ c s, (r (c :: s)).isSome → c = d) (h : d ∉ s) :
    ¬ StartsWithin r s := by
  rintro ⟨u, v, t, rfl, hv, -, hsome⟩
  obtain ⟨c, v, rfl⟩ := List.exists_cons_of_ne_nil hv
  exact h (hr c _ hsome ▸ List.mem_append_right u List.mem_cons_self)

/-- **A search stops at the first place where the word starts**, if the reader accepts there. -/
theorem StartsWithin.exists_first (h : StartsWithin r s) :
    ∃ u v, s = u ++ v ∧ v ≠ [] ∧ (∃ t, (r (v ++ t)).isSome) ∧
      ∀ t a rest, r (v ++ t) = some (a, rest) →
        find? (wordStart r) (s ++ t) = some ⟨u, a, rest⟩ := by
  classical
  have hex : ∃ k, ∃ u v t, u.length = k ∧ s = u ++ v ∧ v ≠ [] ∧ EndsWord u ∧
      (r (v ++ t)).isSome := by
    obtain ⟨u, v, t, hs⟩ := h
    exact ⟨u.length, u, v, t, rfl, hs⟩
  obtain ⟨u, v, t, hlength, hs, hv, hu, ht⟩ := Nat.find_spec hex
  refine ⟨u, v, hs, hv, ⟨t, ht⟩, fun t a rest hr => ?_⟩
  -- a place in front of this one would be a shorter `u`
  have hbefore : ∀ u' v', u = u' ++ v' → v' ≠ [] → EndsWord u' → r (v' ++ (v ++ t)) = none := by
    intro u' v' heq hv' hu'
    rw [← Option.not_isSome_iff_eq_none]
    intro hsome
    have hshorter : u'.length < Nat.find hex := by
      have := List.length_pos_iff.mpr hv'
      rw [← hlength, heq, List.length_append]
      omega
    refine Nat.find_min hex hshorter ⟨u', v' ++ v, t, rfl, ?_, ?_, hu', ?_⟩
    · rw [hs, heq, List.append_assoc]
    · exact List.append_ne_nil_of_left_ne_nil hv' v
    · rwa [List.append_assoc]
  obtain ⟨c, v, rfl⟩ := List.exists_cons_of_ne_nil hv
  rw [List.cons_append] at hr hbefore
  rw [hs, List.append_assoc, List.cons_append, find?_wordStart_append hbefore, findFrom?,
    wordStart_of_endsWord hu, hr]
  simp [Found.behind]

end PayloadTypes.Text.Reader
