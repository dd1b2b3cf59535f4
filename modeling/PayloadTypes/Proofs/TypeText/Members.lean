import PayloadTypes.Proofs.TypeText.Parts
/-!
# Members of unions

The members of a type are trimmed, not empty, without a bar of their own, and
all but the last are closed (`isMember_of_mem_members`,
`isClosed_of_mem_dropLast_members`). Texts like that have themselves for
members when they are joined with bars (`members_union`), so null is taken off
a union by leaving it out, and it comes to one exactly where the text is
closed.
-/

namespace PayloadTypes.TypeText

open Text (AllBlank IsTrimmed isBlank)

variable {s t : List Char} {ps ks : List (List Char)} {ms ns : List String} {m : String}

/-! ## The parts that are members -/

/-- The trimmed parts of a text between top-level bars that are not empty. -/
def memberTexts (s : List Char) : List (List Char) :=
  ((splitTopLevel '|' s).map Text.trim).filter fun p => !p.isEmpty

theorem members_eq (t : String) : members t = (memberTexts t.toList).map String.ofList := rfl

/-- The text may be a member of a union: it is trimmed, not empty and without a bar. -/
structure IsMember (s : List Char) : Prop where
  /-- It neither starts nor ends with a blank. -/
  trimmed : IsTrimmed s
  /-- It is not empty. -/
  ne_nil : s ≠ []
  /-- It has no top-level bar. -/
  part : IsPart '|' (.plain 0) s

/-- A shorter row has a shorter front. -/
theorem dropLast_sublist_dropLast {α : Type} {xs ys : List α} (h : xs.Sublist ys) :
    xs.dropLast.Sublist ys.dropLast := by
  have := h.reverse.tail
  rwa [List.tail_reverse, List.tail_reverse, List.reverse_sublist] at this

theorem isMember_of_mem_memberTexts (h : s ∈ memberTexts t) : IsMember s := by
  obtain ⟨hmem, hne⟩ := List.mem_filter.mp h
  obtain ⟨p, hp, rfl⟩ := List.mem_map.mp hmem
  exact ⟨Text.isTrimmed_trim p, by simpa using hne, (isPart_of_mem_splitTopLevel hp).trim⟩

theorem isClosed_of_mem_dropLast_memberTexts (h : s ∈ (memberTexts t).dropLast) :
    IsClosed s := by
  have hmem := (dropLast_sublist_dropLast List.filter_sublist).subset h
  rw [← List.map_dropLast] at hmem
  obtain ⟨p, hp, rfl⟩ := List.mem_map.mp hmem
  exact (isClosed_of_mem_dropLast_splitTopLevel hp).trim

theorem IsMember.isPiece (h : IsMember s) : IsPiece '|' s := ⟨h.trimmed, h.ne_nil, h.part⟩

/-- A text that may be a member is its only member. -/
theorem IsMember.members_eq (h : IsMember m.toList) : members m = [m] := by
  have htexts : memberTexts m.toList = [m.toList] := h.isPiece.trimmedParts_eq
  rw [TypeText.members_eq, htexts, List.map_singleton, String.ofList_toList]

/-- Behind a closed text a bar starts a new member. -/
theorem memberTexts_bar (h : IsClosed s) :
    memberTexts (s ++ '|' :: t) = memberTexts s ++ memberTexts t :=
  trimmedParts_append_cons (by decide) h

/-- Blanks behind a text belong to no member. -/
theorem memberTexts_append_blank (ht : AllBlank t) : memberTexts (s ++ t) = memberTexts s := by
  have hpart : splitFrom '|' ((Scan.plain 0).after s) t = [t] :=
    isPart_of_allBlank (by decide) ht
  rw [memberTexts, memberTexts, splitTopLevel, splitFrom_append, hpart,
    map_trim_glue_blank ht (splitFrom_ne_nil _ _ _)]
  rfl

/-- A text with one member is made of it, bars and blanks. -/
theorem eq_or_isBlank_or_mem {c : Char} (hs : memberTexts s = [t]) (hc : c ∈ s) :
    c = '|' ∨ isBlank c = true ∨ c ∈ t := by
  obtain h | ⟨p, hp, hmem⟩ := eq_or_exists_of_mem '|' (.plain 0) hc
  · exact .inl h
  · refine .inr ?_
    obtain ⟨a, b, ha, hb, hsplit⟩ := Text.exists_eq_trim p
    rw [hsplit] at hmem
    rcases List.mem_append.mp hmem with hmem | hmem
    · exact .inl (ha c hmem)
    · rcases List.mem_append.mp hmem with hmem | hmem
      · have htrim : Text.trim p ∈ memberTexts s :=
          List.mem_filter.mpr ⟨List.mem_map_of_mem hp, by simp [List.ne_nil_of_mem hmem]⟩
        rw [hs, List.mem_singleton] at htrim
        exact .inr (htrim ▸ hmem)
      · exact .inl (hb c hmem)

/-- **The last member of a text that is not closed is not closed either**, and takes up what stands
behind it, as long as that has no mark. -/
theorem memberTexts_append_of_not_isClosed (h : ¬ IsClosed s) (ht : ∀ c ∈ t, isInert c = true) :
    ∃ ps p q, memberTexts s = ps ++ [p] ∧ memberTexts (s ++ t) = ps ++ [q] ∧
      (∀ k ∈ ps, IsClosed k) ∧ ¬ IsClosed p ∧ ¬ IsClosed q := by
  obtain ⟨ps, p, hs⟩ : ∃ ps p, splitTopLevel '|' s = ps ++ [p] :=
    (List.eq_nil_or_concat' _).resolve_left (splitFrom_ne_nil '|' (.plain 0) s)
  have hlast : (Scan.plain 0).after p = (Scan.plain 0).after s := by
    simpa using after_of_splitFrom_eq_concat hs
  have hopen : ¬ IsClosed p := fun hp => h (hlast.symm.trans hp)
  have hmore : ¬ IsClosed (p ++ t) := fun hp =>
    Scan.after_ne_plain_of_isInert ht (isProper_after_plain 0 p) hopen
      (by rwa [IsClosed, Scan.after_append] at hp)
  -- behind an open text nothing separates
  have htail : IsPart '|' ((Scan.plain 0).after s) t :=
    isPart_of_isInert ht (isProper_after_plain 0 s) h
  have happend : splitTopLevel '|' (s ++ t) = ps ++ [p ++ t] := by
    rw [splitTopLevel, splitFrom_append, htail, ← glue_concat_singleton]
    exact congrArg (glue · [t]) hs
  have hkept : ∀ u k, splitTopLevel '|' u = ps ++ [k] → ¬ IsClosed k → memberTexts u =
      (ps.map Text.trim).filter (fun p => !p.isEmpty) ++ [Text.trim k] := by
    intro u k hu hk
    have hne : Text.trim k ≠ [] := fun hnil => hk (isClosed_trim_iff.mp (hnil ▸ rfl))
    simp [memberTexts, hu, hne]
  refine ⟨_, _, _, hkept s p hs hopen, hkept _ _ happend hmore, fun k hk => ?_,
    mt isClosed_trim_iff.mp hopen, mt isClosed_trim_iff.mp hmore⟩
  obtain ⟨r, hr, rfl⟩ := List.mem_map.mp (List.mem_filter.mp hk).1
  have hfront : r ∈ (splitTopLevel '|' s).dropLast := by rwa [hs, List.dropLast_concat]
  exact (isClosed_of_mem_dropLast_splitTopLevel hfront).trim

/-- **Texts that may be members are the members of their union**, if all but the last are
closed. -/
theorem memberTexts_intercalate (hm : ∀ p ∈ ps, IsMember p) (hc : ∀ p ∈ ps.dropLast, IsClosed p) :
    memberTexts ([' ', '|', ' '].intercalate ps) = ps :=
  trimmedParts_intercalate (by decide) (by decide) Text.allBlank_space Text.allBlank_space
    (fun p hp => (hm p hp).isPiece) hc

/-! ## Unions and their members -/

theorem eraseDups_sublist {α : Type} [BEq α] [LawfulBEq α] (xs : List α) :
    xs.eraseDups.Sublist xs := by
  induction hn : xs.length using Nat.strong_induction_on generalizing xs with
  | _ n ih =>
    cases xs with
    | nil => simp
    | cons x xs =>
      rw [List.eraseDups_cons]
      have hlen := List.length_filter_le (fun y => !y == x) xs
      simp only [List.length_cons] at hn
      exact ((ih _ (by omega) _ rfl).trans List.filter_sublist).cons_cons x

theorem nodup_eraseDups {α : Type} [BEq α] [LawfulBEq α] (xs : List α) : xs.eraseDups.Nodup := by
  induction hn : xs.length using Nat.strong_induction_on generalizing xs with
  | _ n ih =>
    cases xs with
    | nil => simp
    | cons x xs =>
      have hlen := List.length_filter_le (fun y => !y == x) xs
      simp only [List.length_cons] at hn
      rw [List.eraseDups_cons]
      refine List.nodup_cons.mpr ⟨fun hmem => ?_, ih _ (by omega) _ rfl⟩
      simpa using (List.mem_filter.mp (List.mem_eraseDups.mp hmem)).2

/-- Without duplicates there is nothing to leave out. -/
theorem eraseDups_eq_self {α : Type} [BEq α] [LawfulBEq α] {xs : List α} (h : xs.Nodup) :
    xs.eraseDups = xs := by
  induction xs with
  | nil => simp
  | cons x xs ih =>
    obtain ⟨hx, hxs⟩ := List.nodup_cons.mp h
    have hkept : xs.filter (fun y => !y == x) = xs :=
      List.filter_eq_self.mpr fun y hy => by
        simpa using ne_of_mem_of_not_mem hy hx
    rw [List.eraseDups_cons, hkept, ih hxs]

/-- Two members that differ are joined as they are. -/
theorem union_pair {x y : String} (h : x ≠ y) : union [x, y] = x ++ " | " ++ y := by
  rw [union, eraseDups_eq_self (by simp [h]), ← String.toList_inj]
  simp

/-- Duplicates may be left out of a row before it is joined. -/
theorem union_eraseDups (ms : List String) : union ms.eraseDups = union ms := by
  rw [union, eraseDups_eq_self (nodup_eraseDups ms), union]

/-- What a row of members has to be for the members of its union to be the row again. -/
structure AreMembers (ms : List String) : Prop where
  /-- Each may be a member. -/
  isMember : ∀ m ∈ ms, IsMember m.toList
  /-- All but the last are closed. -/
  isClosed : ∀ m ∈ ms.dropLast, IsClosed m.toList

theorem AreMembers.sublist (h : AreMembers ms) (hs : ns.Sublist ms) : AreMembers ns :=
  ⟨fun m hm => h.isMember m (hs.subset hm),
    fun m hm => h.isClosed m ((dropLast_sublist_dropLast hs).subset hm)⟩

/-- The members of a type are such a row. -/
theorem areMembers_members (t : String) : AreMembers (members t) := by
  constructor
  · intro m hm
    obtain ⟨p, hp, rfl⟩ := List.mem_map.mp hm
    rw [String.toList_ofList]
    exact isMember_of_mem_memberTexts hp
  · intro m hm
    rw [members_eq, ← List.map_dropLast] at hm
    obtain ⟨p, hp, rfl⟩ := List.mem_map.mp hm
    rw [String.toList_ofList]
    exact isClosed_of_mem_dropLast_memberTexts hp

/-- **The members of a union**, later duplicates left out. -/
theorem AreMembers.members_union (h : AreMembers ms) : members (union ms) = ms.eraseDups := by
  have he := h.sublist (eraseDups_sublist ms)
  have htexts : memberTexts (union ms).toList = ms.eraseDups.map String.toList := by
    rw [union, String.toList_intercalate]
    refine memberTexts_intercalate (fun p hp => ?_) fun p hp => ?_
    · obtain ⟨m, hm, rfl⟩ := List.mem_map.mp hp
      exact he.isMember m hm
    · rw [← List.map_dropLast] at hp
      obtain ⟨m, hm, rfl⟩ := List.mem_map.mp hp
      exact he.isClosed m hm
  simp [members_eq, htexts, List.map_map, Function.comp_def]

/-! ## Null -/

theorem hasNull_iff {t : String} : hasNull t = true ↔ null ∈ members t := by
  simp [hasNull]

/-- **Null is taken off every union and left on its own**: it is a member afterwards exactly when
it was the only one. -/
theorem hasNull_stripNull_iff (t : String) : hasNull (stripNull t) = true ↔ members t = [null] := by
  rw [hasNull_iff, stripNull]
  split
  · next hlen =>
    match hm : members t with
    | [] => simp
    | [m] => simp [eq_comm]
    | _ :: _ :: _ => exact absurd (hm ▸ hlen) (by simp)
  · next hlen =>
    have hne : members t ≠ [null] := by
      intro h
      simp [h] at hlen
    refine iff_of_false ?_ hne
    -- either nothing is kept, and the type is unknown, or null is not among what is kept
    split
    · decide
    · next kept _ =>
      rw [((areMembers_members t).sublist List.filter_sublist).members_union]
      simp [List.mem_eraseDups]

/-- Behind a closed text the null that is added is a member. -/
theorem members_append_null {t : String} (h : IsClosed t.toList) :
    members (t ++ " | " ++ null) = members t ++ [null] := by
  have htext : (t ++ " | " ++ null).toList = (t.toList ++ [' ']) ++ '|' :: ' ' :: null.toList := by
    simp
  have hblank : IsClosed (t.toList ++ [' ']) := h.append (by decide)
  have hnull : (memberTexts (' ' :: null.toList)).map String.ofList = [null] := by decide
  rw [members_eq, htext, memberTexts_bar hblank, memberTexts_append_blank Text.allBlank_space,
    List.map_append, hnull, members_eq]

theorem null_mem_members_of_isClosed {t : String} (h : IsClosed t.toList) :
    null ∈ members (t ++ " | " ++ null) := by
  rw [members_append_null h]
  exact List.mem_append_right _ List.mem_cons_self

/-- Behind a text that is not closed it goes on the last member. -/
theorem null_mem_members_of_not_isClosed {t : String} (h : ¬ IsClosed t.toList)
    (hmem : null ∈ members (t ++ " | " ++ null)) : null ∈ members t := by
  have htext : (t ++ " | " ++ null).toList = t.toList ++ " | null".toList := by
    simp [null]
  obtain ⟨ps, p, q, hs, happend, -, -, hopen⟩ :=
    memberTexts_append_of_not_isClosed h (t := " | null".toList) (List.all_eq_true.mp (by decide))
  rw [members_eq, htext, happend, List.map_append, List.mem_append] at hmem
  rw [members_eq, hs, List.map_append]
  refine List.mem_append_left _ (hmem.resolve_right fun hq => ?_)
  -- the last member is not closed, and null is
  have hnull : q = null.toList := by
    simpa [← String.toList_inj] using (List.mem_singleton.mp hq).symm
  exact hopen (hnull ▸ by decide)

/-- **Null is added exactly where the text is closed**, or is there already. -/
theorem hasNull_applyNullability_iff (t : String) :
    hasNull (applyNullability t true) = true ↔ hasNull t = true ∨ IsClosed t.toList := by
  by_cases hnull : hasNull t = true
  · simp [applyNullability, hnull]
  · have happly : applyNullability t true = t ++ " | " ++ null := by
      simp [applyNullability, hnull]
    rw [happly, hasNull_iff, or_iff_right hnull]
    refine ⟨fun hmem => ?_, null_mem_members_of_isClosed⟩
    by_contra hclosed
    exact hnull (hasNull_iff.mpr (null_mem_members_of_not_isClosed hclosed hmem))

end PayloadTypes.TypeText
