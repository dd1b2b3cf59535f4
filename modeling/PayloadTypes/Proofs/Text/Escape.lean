import Mathlib.Data.List.Basic
import Mathlib.Data.List.TakeWhile
import PayloadTypes.Text.Cut
/-!
# Escapes and cuts undone

What is put in front of a text, behind it, or in front of each of its quotes
is taken off again: cutting undoes putting together, and replacing pairs
undoes escaping.
-/

namespace PayloadTypes.Text

variable {a b c e q sep : Char} {w s t r : List Char}

/-! ## Cutting what was put together -/

@[simp] theorem after?_append (w r : List Char) : after? w (w ++ r) = some r := by
  induction w with
  | nil => rfl
  | cons c w ih => rw [List.cons_append, after?, if_pos rfl, ih]

/-- A text that starts otherwise does not start with `w`. -/
theorem after?_cons_of_ne (h : a ≠ b) : after? (a :: w) (b :: s) = none := by
  rw [after?, if_neg h]

/-- A text is cut at the first separator. -/
theorem cut?_append (h : sep ∉ t) (r : List Char) : cut? sep (t ++ sep :: r) = some (t, r) := by
  induction t with
  | nil => rw [List.nil_append, cut?, if_pos rfl]
  | cons c t ih =>
    rw [List.mem_cons, not_or] at h
    rw [List.cons_append, cut?, if_neg (Ne.symm h.1), ih h.2]
    rfl

theorem cut?_eq_none (h : sep ∉ s) : cut? sep s = none := by
  induction s with
  | nil => rfl
  | cons c s ih =>
    rw [List.mem_cons, not_or] at h
    rw [cut?, if_neg (Ne.symm h.1), ih h.2]
    rfl

/-- **A word is found at its first place.** It must not stand earlier either, neither in front of
that place nor across its start. -/
theorem cutText?_append (hne : w ≠ []) (h : ¬ w <:+: t ++ w.dropLast) (r : List Char) :
    cutText? w (t ++ (w ++ r)) = some (t, r) := by
  induction t with
  | nil =>
    obtain ⟨c, v, rfl⟩ := List.exists_cons_of_ne_nil hne
    have hafter := after?_append (c :: v) r
    rw [List.cons_append] at hafter
    rw [List.nil_append, List.cons_append, cutText?, hafter]
  | cons c t ih =>
    -- An earlier place would be the start of the text, with the front of the word behind it.
    have hafter : after? w (c :: (t ++ (w ++ r))) = none := by
      rw [Option.eq_none_iff_forall_not_mem]
      intro rest hrest
      have heq : c :: (t ++ (w ++ r)) = w ++ rest := after?_eq_some hrest
      have hlong : w <+: (c :: t ++ w.dropLast) ++ ([w.getLast hne] ++ r) := by
        refine ⟨rest, heq.symm.trans ?_⟩
        conv_lhs => rw [← List.dropLast_concat_getLast hne]
        simp
      have hlength : w.length ≤ (c :: t ++ w.dropLast).length := by
        simp only [List.cons_append, List.length_cons, List.length_append, List.length_dropLast]
        omega
      exact h (List.prefix_of_prefix_length_le hlong (List.prefix_append _ _) hlength).isInfix
    have hrest : ¬ w <:+: t ++ w.dropLast := fun hin =>
      h (hin.trans (List.suffix_cons c _).isInfix)
    rw [List.cons_append, cutText?, hafter, ih hrest]
    rfl

/-- A word that stands in a text has a first place in it. -/
theorem exists_first_infix (hne : w ≠ []) (h : w <:+: s) :
    ∃ t r, s = t ++ (w ++ r) ∧ ¬ w <:+: t ++ w.dropLast := by
  induction s with
  | nil => exact absurd (List.infix_nil.mp h) hne
  | cons c s ih =>
    -- The first place is the start, or the first one behind the first character.
    by_cases hprefix : w <+: c :: s
    · obtain ⟨r, hr⟩ := hprefix
      refine ⟨[], r, hr.symm, fun hin => ?_⟩
      have hlength := hin.length_le
      have hpos := List.length_pos_iff.mpr hne
      simp only [List.nil_append, List.length_dropLast] at hlength
      omega
    · have htail : w <:+: s := (List.infix_cons_iff.mp h).resolve_left hprefix
      obtain ⟨t, r, rfl, hfirst⟩ := ih htail
      refine ⟨c :: t, r, rfl, fun hin => ?_⟩
      rcases List.infix_cons_iff.mp hin with hin | hin
      · have hdrop : w.dropLast <+: w ++ r :=
          (List.dropLast_prefix w).trans (List.prefix_append w r)
        have hlong : c :: (t ++ w.dropLast) <+: c :: (t ++ (w ++ r)) :=
          List.cons_prefix_cons.mpr ⟨rfl, (List.prefix_append_right_inj t).mpr hdrop⟩
        exact hprefix (hin.trans hlong)
      · exact hfirst hin

/-- A pair is not completed by another character than its second. -/
theorem infix_of_infix_concat (h : [a, b] <:+: t ++ [c]) (hne : b ≠ c) : [a, b] <:+: t := by
  rcases List.infix_concat_iff.mp h with ⟨p, hp⟩ | h
  · have hlast := congrArg List.getLast? hp
    rw [List.getLast?_concat, List.getLast?_append_of_ne_nil _ (List.cons_ne_nil _ _)] at hlast
    exact absurd (Option.some.inj hlast) hne
  · exact h

/-- A pair of two different characters does not stand across its own start. -/
theorem cutText?_pair (hab : a ≠ b) (h : ¬ [a, b] <:+: t) (r : List Char) :
    cutText? [a, b] (t ++ a :: b :: r) = some (t, r) :=
  cutText?_append (List.cons_ne_nil _ _) (fun hin => h (infix_of_infix_concat hin hab.symm)) r

/-- **A word is found at its last place** where it does not stand later, not even across the end of
that place. -/
theorem cutLast?_append (hne : w ≠ []) (h : ¬ w <:+: w.tail ++ r) (t : List Char) :
    cutLast? w (t ++ (w ++ r)) = some (t, r) := by
  have hrev : ¬ w.reverse <:+: r.reverse ++ w.reverse.dropLast := by
    rwa [List.dropLast_reverse, ← List.reverse_append, List.reverse_infix]
  rw [cutLast?, List.reverse_append, List.reverse_append, List.append_assoc,
    cutText?_append (List.reverse_ne_nil_iff.mpr hne) hrev]
  simp

/-- A word that stands in a text has a last place in it. -/
theorem exists_last_infix (hne : w ≠ []) (h : w <:+: s) :
    ∃ t r, s = t ++ (w ++ r) ∧ ¬ w <:+: w.tail ++ r := by
  obtain ⟨t, r, hs, hfirst⟩ :=
    exists_first_infix (List.reverse_ne_nil_iff.mpr hne) (List.reverse_infix.mpr h)
  refine ⟨r.reverse, t.reverse, ?_, fun hin => hfirst ?_⟩
  · simpa using congrArg List.reverse hs
  · rw [← List.reverse_infix] at hin
    simpa using hin

theorem cutLast?_eq_none_iff (hne : w ≠ []) : cutLast? w s = none ↔ ¬ w <:+: s := by
  constructor
  · intro hnone hin
    obtain ⟨t, r, rfl, hlast⟩ := exists_last_infix hne hin
    rw [cutLast?_append hne hlast] at hnone
    cases hnone
  · intro hnot
    rw [Option.eq_none_iff_forall_not_mem]
    rintro ⟨t, r⟩ hcut
    exact hnot ⟨t, r, (cutLast?_eq_some hcut).symm⟩

@[simp] theorem before?_append (a w : List Char) : before? w (a ++ w) = some a := by
  simp [before?]

theorem endsWith_iff : endsWith w s = true ↔ w <:+ s := by
  rw [endsWith, Option.isSome_iff_exists]
  constructor
  · rintro ⟨a, ha⟩
    exact ⟨a, (before?_eq_some ha).symm⟩
  · rintro ⟨a, rfl⟩
    exact ⟨a, before?_append a w⟩

/-- Behind a text that ends with the separator, or is empty, stands the last piece. -/
theorem lastPiece_append (ht : ∀ c ∈ t.getLast?, c = sep) (h : sep ∉ s) :
    lastPiece sep (t ++ s) = s := by
  have hall : ∀ c ∈ s.reverse, (c != sep) = true := by
    intro c hc
    refine bne_iff_ne.mpr ?_
    rintro rfl
    exact h (List.mem_reverse.mp hc)
  have hnone : t.reverse.takeWhile (· != sep) = [] := by
    rw [List.getLast?_eq_head?_reverse] at ht
    cases hrev : t.reverse with
    | nil => rfl
    | cons c r =>
      have hc : c = sep := ht c (by rw [hrev]; rfl)
      rw [List.takeWhile_cons_of_neg (by simp [hc])]
  rw [lastPiece, List.reverse_append, List.takeWhile_append_of_pos hall, hnone, List.append_nil,
    List.reverse_reverse]

theorem mem_of_mem_lastPiece (h : c ∈ lastPiece sep s) : c ∈ s := by
  rw [lastPiece, List.mem_reverse] at h
  exact List.mem_reverse.mp ((List.takeWhile_sublist _).subset h)

/-- A text that ends otherwise than with the separator has something behind the last one. -/
theorem lastPiece_ne_nil (hne : s ≠ []) (h : sep ∉ s.getLast?) : lastPiece sep s ≠ [] := by
  rw [List.getLast?_eq_head?_reverse] at h
  cases hrev : s.reverse with
  | nil => exact absurd (List.reverse_eq_nil_iff.mp hrev) hne
  | cons d r =>
    have hd : d ≠ sep := by
      rintro rfl
      exact h (by rw [hrev]; rfl)
    rw [lastPiece, hrev, List.takeWhile_cons_of_pos (by simpa using hd)]
    simp

/-- A text is its last piece behind one that ends with the separator, or behind nothing. -/
theorem exists_eq_append_lastPiece (sep : Char) (s : List Char) :
    ∃ t, (∀ c ∈ t.getLast?, c = sep) ∧ s = t ++ lastPiece sep s := by
  refine ⟨(s.reverse.dropWhile (· != sep)).reverse, fun c hc => ?_, ?_⟩
  · rw [List.getLast?_reverse] at hc
    have := List.head?_dropWhile_not (· != sep) s.reverse
    rw [Option.mem_def.mp hc] at this
    simpa using this
  · rw [lastPiece, ← List.reverse_append, List.takeWhile_append_dropWhile, List.reverse_reverse]

theorem not_mem_lastPiece (sep : Char) (s : List Char) : sep ∉ lastPiece sep s := by
  intro h
  rw [lastPiece, List.mem_reverse] at h
  simpa using List.mem_takeWhile_imp h

/-- Separators in front of a text do not change what stands behind the last one. -/
theorem lastPiece_dropWhile (sep : Char) (s : List Char) :
    lastPiece sep (s.dropWhile (· == sep)) = lastPiece sep s := by
  obtain ⟨t, ht, hs⟩ := exists_eq_append_lastPiece sep (s.dropWhile (· == sep))
  have hfront : ∀ c ∈ (s.takeWhile (· == sep) ++ t).getLast?, c = sep := by
    intro c hc
    by_cases hnil : t = []
    · rw [hnil, List.append_nil] at hc
      simpa using List.mem_takeWhile_imp (List.mem_of_mem_getLast? hc)
    · rw [List.getLast?_append_of_ne_nil _ hnil] at hc
      exact ht c hc
  have htext : s = (s.takeWhile (· == sep) ++ t) ++ lastPiece sep (s.dropWhile (· == sep)) := by
    rw [List.append_assoc, ← hs, List.takeWhile_append_dropWhile]
  conv_rhs => rw [htext, lastPiece_append hfront (not_mem_lastPiece sep _)]

/-! ## Escaping -/

theorem escapeWith_cons_self (e q : Char) (s : List Char) :
    escapeWith e q (q :: s) = e :: q :: escapeWith e q s := by
  simp [escapeWith]

theorem escapeWith_cons_of_ne (h : c ≠ q) (e : Char) (s : List Char) :
    escapeWith e q (c :: s) = c :: escapeWith e q s := by
  simp [escapeWith, h]

theorem replacePair_cons_cons_self (a b c : Char) (s : List Char) :
    replacePair a b c (a :: b :: s) = c :: replacePair a b c s := by
  rw [replacePair, if_pos ⟨rfl, rfl⟩]

/-- What does not start with the pair keeps its first character. -/
theorem replacePair_cons_of_not {x : Char} (h : x = a → b ∉ s.head?) :
    replacePair a b c (x :: s) = x :: replacePair a b c s := by
  cases s with
  | nil => rfl
  | cons y s =>
    rw [replacePair, if_neg]
    rintro ⟨hx, rfl⟩
    exact h hx rfl

/-- Nothing new stands in a text with pairs replaced but what they are replaced with. -/
theorem eq_or_mem_of_mem_replacePair {x : Char} (h : x ∈ replacePair a b c s) : x = c ∨ x ∈ s := by
  fun_induction replacePair a b c s with
  | case1 => cases h
  | case2 y => exact .inr h
  | case3 y z s _ ih =>
    rcases List.mem_cons.mp h with rfl | h
    · exact .inl rfl
    · exact (ih h).imp_right fun h => List.mem_cons_of_mem _ (List.mem_cons_of_mem _ h)
  | case4 y z s _ ih =>
    rcases List.mem_cons.mp h with rfl | h
    · exact .inr List.mem_cons_self
    · exact (ih h).imp_right (List.mem_cons_of_mem _)

/-- Nothing new stands in an escaped text but what it is escaped with. -/
theorem eq_or_mem_of_mem_escapeWith {x : Char} (h : x ∈ escapeWith e q s) : x = e ∨ x ∈ s := by
  obtain ⟨c, hc, hx⟩ := List.mem_flatMap.mp h
  split at hx
  · next hcq =>
    rw [List.mem_pair, ← hcq] at hx
    exact hx.imp_right fun hxc : x = c => hxc ▸ hc
  · exact .inr (List.mem_singleton.mp hx ▸ hc)

/-- Nothing is lost in an escaped text. -/
theorem mem_escapeWith {x : Char} (h : x ∈ s) : x ∈ escapeWith e q s := by
  refine List.mem_flatMap.mpr ⟨x, h, ?_⟩
  split
  · next hxq => exact hxq ▸ List.mem_cons_of_mem _ List.mem_cons_self
  · exact List.mem_singleton_self x

/-- What needs no escape stays as it is. -/
theorem escapeWith_append_of_not_mem (h : q ∉ w) (s : List Char) :
    escapeWith e q (w ++ s) = w ++ escapeWith e q s := by
  induction w with
  | nil => rfl
  | cons c w ih =>
    rw [List.mem_cons, not_or] at h
    rw [List.cons_append, escapeWith_cons_of_ne (Ne.symm h.1), ih h.2, List.cons_append]

/-- Where an escaped text goes on without the escape, the text itself goes on the same way. -/
theorem exists_of_escapeWith_eq_append {v : List Char} (h : escapeWith e q v = w ++ s)
    (he : e ∉ w) : ∃ r, v = w ++ r ∧ q ∉ w ∧ escapeWith e q r = s := by
  induction w generalizing v with
  | nil => exact ⟨v, rfl, List.not_mem_nil, h⟩
  | cons c w ih =>
    rw [List.mem_cons, not_or] at he
    cases v with
    | nil => cases h
    | cons d v =>
      by_cases hd : d = q
      · rw [hd, escapeWith_cons_self, List.cons_append, List.cons.injEq] at h
        exact absurd h.1 he.1
      · rw [escapeWith_cons_of_ne hd, List.cons_append, List.cons.injEq] at h
        obtain ⟨rfl, h⟩ := h
        obtain ⟨r, rfl, hq, hr⟩ := ih h he.2
        exact ⟨r, rfl, List.not_mem_cons_of_ne_of_not_mem (Ne.symm hd) hq, hr⟩

/-- An escape stands in front of what is escaped, or was there before. -/
theorem of_escapeWith_eq_cons_self {v : List Char} (h : escapeWith e q v = e :: s) :
    (∃ r, v = q :: r ∧ s = q :: escapeWith e q r) ∨ ∃ r, v = e :: r ∧ s = escapeWith e q r := by
  cases v with
  | nil => cases h
  | cons c v =>
    by_cases hc : c = q
    · rw [hc, escapeWith_cons_self, List.cons.injEq] at h
      exact .inl ⟨v, by rw [hc], h.2.symm⟩
    · rw [escapeWith_cons_of_ne hc, List.cons.injEq] at h
      exact .inr ⟨v, by rw [h.1], h.2.symm⟩

/-- An escaped text does not start with what is escaped, unless it escapes itself. -/
theorem head?_escapeWith (h : e ≠ q) : q ∉ (escapeWith e q s).head? := by
  cases s with
  | nil => simp [escapeWith]
  | cons c s =>
    by_cases hc : c = q
    · rw [hc, escapeWith_cons_self]
      simpa using h
    · rw [escapeWith_cons_of_ne hc]
      simpa using hc

/-- **Replacing the pairs undoes the escaping**, in one pass from the left. -/
theorem replacePair_escapeWith (e q : Char) (s : List Char) :
    replacePair e q q (escapeWith e q s) = s := by
  induction s with
  | nil => rfl
  | cons c s ih =>
    by_cases hc : c = q
    · rw [hc, escapeWith_cons_self, replacePair_cons_cons_self, ih]
    · rw [escapeWith_cons_of_ne hc, replacePair_cons_of_not, ih]
      intro hce
      exact head?_escapeWith (hce ▸ hc)

end PayloadTypes.Text
