import PayloadTypes.Proofs.Text.Ascii
import PayloadTypes.Proofs.Text.Reader
import PayloadTypes.Source.Scope
/-!
# Names in types

A name in a type is an identifier that may have hyphens, with or without a
backslash in front, and further identifiers behind it, each with a backslash in
front. What is read off a text is the longest name that it starts with
(`typeName_eq_some_iff`), and the characters behind the name do not matter as long
as the next one cannot stand in a name (`isLongestName_append_iff`).
-/

namespace PayloadTypes.Source

open Text.Reader

variable {c : Char} {s t v w r : List Char}

/-! ## Names -/

/-- A character in the first part of a name: keywords may have hyphens. -/
def isHeadChar (c : Char) : Bool := Text.isIdentChar c || c == '-'

/-- Further parts of a name: identifiers, each with a backslash in front. -/
inductive AreSegments : List Char → Prop
  /-- None. -/
  | nil : AreSegments []
  /-- One more in front. -/
  | cons {w s : List Char} (hw : IsIdentifier w) (hs : AreSegments s) :
      AreSegments ('\\' :: (w ++ s))

/-- A name as it may stand in a type, with a backslash in front or without. -/
def IsDeclaredName (w : List Char) : Prop :=
  ∃ lead c head more, (lead = [] ∨ lead = ['\\']) ∧ Text.isIdentStart c = true ∧
    (∀ d ∈ head, isHeadChar d = true) ∧ AreSegments more ∧ w = lead ++ c :: (head ++ more)

/-- The longest name that a text starts with. -/
structure IsLongestName (w s : List Char) : Prop where
  /-- It is a name. -/
  name : IsDeclaredName w
  /-- The text starts with it. -/
  front : w <+: s
  /-- No longer one does. -/
  longest : ∀ v, IsDeclaredName v → v <+: s → v.length ≤ w.length

theorem IsLongestName.unique (hv : IsLongestName v s) (hw : IsLongestName w s) : v = w :=
  have hfront := List.prefix_of_prefix_length_le hv.front hw.front (hw.longest v hv.name hv.front)
  hfront.eq_of_length_le (hv.longest w hw.name hw.front)

/-- A character of a name. -/
def isDeclaredChar (c : Char) : Bool := isHeadChar c || c == '\\'

theorem AreSegments.forall_mem (h : AreSegments s) : ∀ d ∈ s, isDeclaredChar d = true := by
  induction h with
  | nil => simp
  | cons hw _ ih =>
    obtain ⟨c, v, rfl, hc, hv⟩ := hw
    have hword : ∀ d ∈ c :: v, isDeclaredChar d = true := by
      refine List.forall_mem_cons.mpr ⟨?_, fun d hd => ?_⟩
      · simp [isDeclaredChar, isHeadChar, Text.isIdentChar_of_isIdentStart hc]
      · simp [isDeclaredChar, isHeadChar, hv d hd]
    exact List.forall_mem_cons.mpr ⟨rfl, List.forall_mem_append.mpr ⟨hword, ih⟩⟩

theorem IsDeclaredName.forall_mem (h : IsDeclaredName w) : ∀ d ∈ w, isDeclaredChar d = true := by
  obtain ⟨lead, c, head, more, hlead, hc, hhead, hmore, rfl⟩ := h
  refine List.forall_mem_append.mpr ⟨?_, List.forall_mem_cons.mpr ⟨?_,
    List.forall_mem_append.mpr ⟨fun d hd => ?_, hmore.forall_mem⟩⟩⟩
  · rcases hlead with rfl | rfl <;> simp [isDeclaredChar]
  · simp [isDeclaredChar, isHeadChar, Text.isIdentChar_of_isIdentStart hc]
  · simp [isDeclaredChar, hhead d hd]

theorem IsDeclaredName.ne_nil (h : IsDeclaredName w) : w ≠ [] := by
  obtain ⟨lead, c, head, more, -, -, -, -, rfl⟩ := h
  simp

/-! ## Reading a name -/

theorem AreSegments.head?_eq (h : AreSegments s) : ∀ d ∈ s.head?, d = '\\' := by
  cases h <;> simp

/-- Nothing is longer than the longest run of characters and the longest row of parts behind it. -/
theorem AreSegments.length_append_le {p : Char → Bool} {run more u m : List Char}
    (hmore : AreSegments more) (hp : p '\\' = false) (hrun : ∀ d ∈ run, p d = true)
    (hfront : run ++ more <+: u)
    (hlongest : ∀ v, AreSegments v → v <+: u.dropWhile p → v.length ≤ m.length) :
    (run ++ more).length ≤ (u.takeWhile p ++ m).length := by
  have hend : ∀ x ∈ more.head?, p x = false := by
    intro x hx
    rw [hmore.head?_eq x hx, hp]
  rw [List.length_append, List.length_append]
  rcases Text.prefix_takeWhile_or hrun hend hfront with ⟨rfl, hlonger⟩ | ⟨rfl, hsegments⟩
  · have := hlonger.length_le
    simp only [List.length_nil]
    omega
  · have := hlongest _ hmore hsegments
    omega

theorem typeSegment_cons (hc : Text.isIdentStart c = true) (s : List Char) :
    typeSegment ('\\' :: c :: s) =
      some (c :: s.takeWhile Text.isIdentChar, s.dropWhile Text.isIdentChar) := by
  rw [typeSegment, bind_eq (char_cons _ _), identifier_cons hc]

theorem typeSegment_eq_none (h : ∀ c t, Text.isIdentStart c = true → s ≠ '\\' :: c :: t) :
    typeSegment s = none := by
  rw [Option.eq_none_iff_forall_ne_some]
  rintro ⟨w, t⟩ hread
  obtain ⟨⟨⟩, s', hchar, hword⟩ := bind_eq_some_iff.mp hread
  rw [identifier] at hword
  obtain ⟨c, u, hc, -⟩ := bind_eq_some_iff.mp hword
  exact h c u (of_one hc) (by rw [eq_cons_of_char hchar, eq_cons_of_one hc])

/-- **All further parts of a name are read.** -/
theorem exists_upTo_typeSegment (n : ℕ) (s : List Char) (hn : s.length ≤ n) :
    ∃ xs m r, upTo typeSegment n s = some (xs, r) ∧ s = m ++ r ∧ AreSegments m ∧
      ∀ v, AreSegments v → v <+: s → v.length ≤ m.length := by
  induction n generalizing s with
  | zero =>
    obtain rfl := List.length_eq_zero_iff.mp (Nat.le_zero.mp hn)
    exact ⟨[], [], [], rfl, rfl, .nil, fun v _ hv => hv.length_le⟩
  | succ n ih =>
    by_cases hstart : ∃ c u, Text.isIdentStart c = true ∧ s = '\\' :: c :: u
    · obtain ⟨c, u, hc, rfl⟩ := hstart
      -- Reading goes on behind the word, so the bound is for what is left there.
      have hlen : (u.dropWhile Text.isIdentChar).length ≤ n := by
        have := (List.dropWhile_suffix Text.isIdentChar (l := u)).length_le
        simp only [List.length_cons] at hn
        omega
      obtain ⟨xs, m, r, hmore, hs, hm, hlongest⟩ := ih _ hlen
      have hword : IsIdentifier (c :: u.takeWhile Text.isIdentChar) :=
        ⟨c, _, rfl, hc, fun d hd => List.mem_takeWhile_imp hd⟩
      have hall : upTo typeSegment (n + 1) ('\\' :: c :: u) =
          some ((c :: u.takeWhile Text.isIdentChar) :: xs, r) := by
        rw [upTo_of_eq_some (typeSegment_cons hc u), hmore, Option.map_some]
      refine ⟨_, '\\' :: ((c :: u.takeWhile Text.isIdentChar) ++ m), r, hall, ?_,
        .cons hword hm, fun v hv hfront => ?_⟩
      · rw [List.cons_append, List.append_assoc, ← hs, List.cons_append,
          List.takeWhile_append_dropWhile]
      -- A name in front of the text starts with the same word, and its further parts are in the
      -- rest.
      · cases hv with
        | nil => exact Nat.zero_le _
        | cons hw hmore =>
          obtain ⟨d, w, rfl, -, hw⟩ := hw
          obtain ⟨-, hbehind⟩ := List.cons_prefix_cons.mp hfront
          obtain ⟨-, hrest⟩ := List.cons_prefix_cons.mp hbehind
          have hle := hmore.length_append_le rfl hw hrest hlongest
          simpa using hle
    · have hnone : typeSegment s = none :=
        typeSegment_eq_none fun c u hc hs => hstart ⟨c, u, hc, hs⟩
      -- Without a part to read nothing but the empty text is such a front.
      refine ⟨[], [], s, upTo_of_eq_none hnone n, rfl, .nil, fun v hv hfront => ?_⟩
      cases hv with
      | nil => exact Nat.zero_le _
      | cons hw _ =>
        obtain ⟨d, w, rfl, hd, -⟩ := hw
        obtain ⟨u, rfl⟩ := hfront
        exact absurd ⟨d, _, hd, rfl⟩ hstart

/-- **A name is read where one may start**, and it is the longest there. -/
theorem exists_typeName {lead : List Char} (hlead : lead = [] ∨ lead = ['\\'])
    (hc : Text.isIdentStart c = true) (s : List Char) :
    ∃ w r, typeName (lead ++ c :: s) = some (w, r) ∧ lead ++ c :: s = w ++ r ∧
      IsLongestName w (lead ++ c :: s) := by
  obtain ⟨xs, m, r, hmore, hs, hm, hlongest⟩ :=
    exists_upTo_typeSegment _ (s.dropWhile isHeadChar) le_rfl
  have hne : c ≠ '\\' := by
    rintro rfl
    cases hc
  have htext : lead ++ c :: s = (lead ++ c :: (s.takeWhile isHeadChar ++ m)) ++ r := by
    rw [List.append_assoc, List.cons_append, List.append_assoc, ← hs,
      List.takeWhile_append_dropWhile]
  have hread : (do
      let _ ← maybe (char '\\')
      let _ ← one Text.isIdentStart
      let _ ← many fun c => Text.isIdentChar c || c == '-'
      repeated typeSegment : Text.Reader (List (List Char))) (lead ++ c :: s) = some (xs, r) := by
    have hmaybe : ∃ o, maybe (char '\\') (lead ++ c :: s) = some (o, c :: s) := by
      rcases hlead with rfl | rfl
      · exact ⟨none, maybe_eq_none (char_eq_none hne s)⟩
      · exact ⟨some (), maybe_eq_some (char_cons _ _)⟩
    obtain ⟨o, hmaybe⟩ := hmaybe
    rw [bind_eq hmaybe, bind_eq (one_cons hc)]
    exact hmore
  refine ⟨lead ++ c :: (s.takeWhile isHeadChar ++ m), r, ?_, htext, ?_, ?_, fun v hv hfront => ?_⟩
  · rw [htext] at hread ⊢
    exact span_append hread
  · exact ⟨lead, c, _, m, hlead, hc, fun d hd => List.mem_takeWhile_imp hd, hm, rfl⟩
  · exact ⟨r, htext.symm⟩
  · obtain ⟨lead', c', head, more, hlead', hc', hhead, hmore, rfl⟩ := hv
    have hne' : c' ≠ '\\' := by
      rintro rfl
      cases hc'
    -- both names have a backslash in front or neither has
    obtain ⟨rfl, hbehind⟩ : lead' = lead ∧ c' :: (head ++ more) <+: c :: s := by
      rcases hlead with rfl | rfl <;> rcases hlead' with rfl | rfl
      · exact ⟨rfl, hfront⟩
      · exact absurd (List.cons_prefix_cons.mp hfront).1.symm hne
      · exact absurd (List.cons_prefix_cons.mp hfront).1 hne'
      · exact ⟨rfl, (List.cons_prefix_cons.mp hfront).2⟩
    obtain ⟨-, hrest⟩ := List.cons_prefix_cons.mp hbehind
    have hle := hmore.length_append_le rfl hhead hrest hlongest
    rw [List.length_append, List.length_append, List.length_cons, List.length_cons]
    omega

/-- **What is read is the longest name.** -/
theorem typeName_eq_some_iff :
    typeName s = some (w, r) ↔ s = w ++ r ∧ IsLongestName w s := by
  have hsome : ∀ {v}, IsDeclaredName v → v <+: s →
      ∃ w r, typeName s = some (w, r) ∧ s = w ++ r ∧ IsLongestName w s := by
    rintro _ ⟨lead, c, head, more, hlead, hc, -, -, rfl⟩ ⟨u, rfl⟩
    simpa using exists_typeName hlead hc (head ++ (more ++ u))
  constructor
  · intro h
    -- something was read, so a name starts the text
    have hstart : ∃ v, IsDeclaredName v ∧ v <+: s := by
      obtain ⟨⟨xs, t⟩, hread, -⟩ := Option.map_eq_some_iff.mp h
      obtain ⟨o, s', hmaybe, hread⟩ := bind_eq_some_iff.mp hread
      obtain ⟨c, u, hc, -⟩ := bind_eq_some_iff.mp hread
      obtain rfl := eq_cons_of_one hc
      cases o with
      | none =>
        exact ⟨[c], ⟨[], c, [], [], .inl rfl, of_one hc, by simp, .nil, rfl⟩,
          by simp [eq_of_maybe_eq_none hmaybe]⟩
      | some x =>
        exact ⟨['\\', c], ⟨['\\'], c, [], [], .inr rfl, of_one hc, by simp, .nil, rfl⟩,
          by simp [eq_cons_of_char (of_maybe_eq_some hmaybe)]⟩
    obtain ⟨v, hv, hfront⟩ := hstart
    obtain ⟨w', r', hread, hs, hw⟩ := hsome hv hfront
    cases h.symm.trans hread
    exact ⟨hs, hw⟩
  · rintro ⟨hs, hw⟩
    obtain ⟨w', r', hread, hs', hw'⟩ := hsome hw.name hw.front
    obtain rfl := hw'.unique hw
    rw [hread, List.append_cancel_left (hs'.symm.trans hs)]

theorem typeName_eq_none_iff : typeName s = none ↔ ∀ w, ¬ IsLongestName w s := by
  rw [Option.eq_none_iff_forall_ne_some]
  constructor
  · intro h w hw
    obtain ⟨r, hr⟩ := hw.front
    exact h (w, r) (typeName_eq_some_iff.mpr ⟨hr.symm, hw⟩)
  · rintro h ⟨w, r⟩ hread
    exact h w (typeName_eq_some_iff.mp hread).2

/-- A name ends in front of what is no character of names. -/
theorem isLongestName_append_iff (hc : isDeclaredChar c = false) :
    IsLongestName w (s ++ c :: t) ↔ IsLongestName w s := by
  -- A name that reached over `c` would have it among its characters.
  have hfront : ∀ {v}, IsDeclaredName v → (v <+: s ++ c :: t ↔ v <+: s) := by
    intro v hv
    refine ⟨fun h => ?_, fun h => h.trans (List.prefix_append _ _)⟩
    by_contra hnot
    have hmem : c ∈ v := by
      rcases List.prefix_or_prefix_of_prefix h (List.prefix_append s (c :: t)) with h' | ⟨u, rfl⟩
      · exact absurd h' hnot
      · cases u with
        | nil => exact absurd (by simp) hnot
        | cons d u =>
          rw [List.prefix_append_right_inj] at h
          rw [(List.cons_prefix_cons.mp h).1]
          simp
    rw [hv.forall_mem c hmem] at hc
    cases hc
  constructor
  · exact fun h => ⟨h.name, (hfront h.name).mp h.front,
      fun v hv hv' => h.longest v hv ((hfront hv).mpr hv')⟩
  · exact fun h => ⟨h.name, (hfront h.name).mpr h.front,
      fun v hv hv' => h.longest v hv ((hfront hv).mp hv')⟩

end PayloadTypes.Source
