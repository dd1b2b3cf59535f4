import PayloadTypes.Proofs.Text.Join
import PayloadTypes.Proofs.TypeText.Scan
/-!
# Splitting and joining

The parts of a text are known by how they stand together: the separator joins them
to the text, none of them has a separator of its own, and all but the last are
closed (`splitTopLevel_eq_iff`). From this come the laws of a separator that is no
quote and no bracket (`splitLaws`).
-/

namespace PayloadTypes.TypeText

variable {sep : Char} {s p a b : List Char} {ps : List (List Char)}

/-! ## Joining the parts -/

/-- **The parts joined by the separator are the text.** -/
theorem intercalate_splitFrom (sep : Char) (st : Scan) (s : List Char) :
    [sep].intercalate (splitFrom sep st s) = s := by
  induction s generalizing st with
  | nil => rfl
  | cons c s ih =>
    cases hsep : st.separates sep c with
    | true =>
      have hne : splitFrom sep st s ≠ [] := splitFrom_ne_nil _ _ _
      rw [splitFrom_of_separates hsep, List.intercalate_cons_of_ne_nil hne, ih,
        (Scan.separates_iff.mp hsep).2.1]
      rfl
    | false =>
      obtain ⟨p, ps, hs⟩ := exists_splitFrom_eq_cons sep (st.step c) s
      rw [splitFrom_of_not_separates hsep hs, Text.intercalate_cons, List.cons_append,
        ← Text.intercalate_cons, ← hs, ih]

/-! ## Parts that stand together -/

/-- The text is split into the parts: they are its parts, and their bounds are where it is cut. -/
structure SplitsInto (sep : Char) (s : List Char) (ps : List (List Char)) : Prop where
  /-- There is a part, if only an empty one. -/
  ne_nil : ps ≠ []
  /-- The separator joins the parts to the text. -/
  join_eq : Text.join [sep] ps = s
  /-- No part has a separator of its own. -/
  isPart : ∀ p ∈ ps, IsPart sep (.plain 0) p
  /-- In front of a separator brackets and quotes are closed. -/
  isClosed : ∀ p ∈ ps.dropLast, IsClosed p

theorem splitsInto_splitTopLevel (sep : Char) (s : List Char) :
    SplitsInto sep s (splitTopLevel sep s) where
  ne_nil := splitFrom_ne_nil _ _ _
  join_eq := intercalate_splitFrom _ _ _
  isPart _ := isPart_of_mem_splitTopLevel
  isClosed _ := isClosed_of_mem_dropLast_splitTopLevel

theorem SplitsInto.tail {q : List Char} (h : SplitsInto sep s (p :: q :: ps)) :
    SplitsInto sep (Text.join [sep] (q :: ps)) (q :: ps) where
  ne_nil := List.cons_ne_nil _ _
  join_eq := rfl
  isPart r hr := h.isPart r (List.mem_cons_of_mem _ hr)
  isClosed r hr := h.isClosed r (List.mem_cons_of_mem _ hr)

/-- **A text is split in one way.** -/
theorem splitTopLevel_eq_iff (hsep : isInert sep = true) :
    splitTopLevel sep s = ps ↔ SplitsInto sep s ps := by
  constructor
  · rintro rfl
    exact splitsInto_splitTopLevel sep s
  · intro h
    -- The first piece is closed and holds no separator, so the first cut is behind it.
    induction ps generalizing s with
    | nil => exact absurd rfl h.ne_nil
    | cons p ps ih =>
      have hp : splitTopLevel sep p = [p] := h.isPart p List.mem_cons_self
      cases ps with
      | nil =>
        rw [← h.join_eq, Text.join, List.intercalate_singleton, hp]
      | cons q ps =>
        have hclosed : IsClosed p := h.isClosed p List.mem_cons_self
        have hs : s = p ++ sep :: Text.join [sep] (q :: ps) := by
          rw [← h.join_eq, Text.join, List.intercalate_cons_cons, List.append_assoc]
          rfl
        rw [hs, splitTopLevel_append_cons hclosed hsep, hp, ih h.tail, List.singleton_append]

/-! ## Cutting at a separator -/

/-- Where brackets or quotes are open, a separator stands inside of a part. -/
theorem exists_splitTopLevel_append_cons (h : ¬ IsClosed a) (sep : Char) (b : List Char) :
    ∃ ps p q qs, splitTopLevel sep a = ps ++ [p] ∧
      splitTopLevel sep (a ++ sep :: b) = ps ++ (p ++ sep :: q) :: qs := by
  obtain ⟨ps, p, ha⟩ : ∃ ps p, splitTopLevel sep a = ps ++ [p] :=
    (List.eq_nil_or_concat' _).resolve_left (splitFrom_ne_nil sep (.plain 0) a)
  have hsep : ((Scan.plain 0).after a).separates sep sep = false := by
    rw [← Bool.not_eq_true, Scan.separates_iff]
    exact fun hsep => h hsep.1
  obtain ⟨q, qs, hb⟩ := exists_splitFrom_eq_cons sep (((Scan.plain 0).after a).step sep) b
  refine ⟨ps, p, q, qs, ha, ?_⟩
  rw [splitTopLevel, splitFrom_append, splitFrom_of_not_separates hsep hb, ← splitTopLevel, ha,
    glue_concat_cons]

/-- **A separator cuts a text just where what is in front of it is closed.** -/
theorem splitTopLevel_append_cons_iff (hsep : isInert sep = true) :
    splitTopLevel sep (a ++ sep :: b) = splitTopLevel sep a ++ splitTopLevel sep b ↔
      IsClosed a := by
  refine ⟨fun h => ?_, fun ha => splitTopLevel_append_cons ha hsep⟩
  by_contra hopen
  obtain ⟨ps, p, q, qs, ha, hab⟩ := exists_splitTopLevel_append_cons hopen sep b
  rw [ha, hab, List.append_assoc, List.append_cancel_left_eq, List.singleton_append] at h
  -- the last part of `a` would go on with the separator
  have hp : p ++ sep :: q = p := (List.cons.inj h).1
  simp at hp

/-- The laws of splitting at a separator. -/
structure SplitLaws (sep : Char) : Prop where
  /-- The parts joined by the separator are the text. -/
  join_parts : ∀ s, Text.join [sep] (splitTopLevel sep s) = s
  /-- A part is its own only part. -/
  parts_part : ∀ s, ∀ p ∈ splitTopLevel sep s, splitTopLevel sep p = [p]
  /-- Behind a closed text, and nowhere else, the parts of what follows are parts of the whole. -/
  parts_append : ∀ a b,
    splitTopLevel sep (a ++ sep :: b) = splitTopLevel sep a ++ splitTopLevel sep b ↔ IsClosed a
  /-- Nothing else is split off: the parts are the only ones that stand together like this. -/
  unique : ∀ s ps, SplitsInto sep s ps → ps = splitTopLevel sep s

/-- **Every separator that is no quote and no bracket** splits texts into parts that it joins
again, whatever brackets and quotes are left open or closed twice. -/
theorem splitLaws (h : isInert sep = true) : SplitLaws sep where
  join_parts s := (splitsInto_splitTopLevel sep s).join_eq
  parts_part s := (splitsInto_splitTopLevel sep s).isPart
  parts_append _ _ := splitTopLevel_append_cons_iff h
  unique _ _ hs := ((splitTopLevel_eq_iff h).mpr hs).symm

/-- The backslash is a separator as well: outside of quotes it escapes nothing. -/
theorem splitLaws_backslash : isInert '\\' = true ∧ SplitLaws '\\' :=
  ⟨by decide, splitLaws (by decide)⟩

/-- A stray bracket closes nothing, and what is left open hides what follows. -/
example : splitTopLevel '|' "a>|Array<b|'c\\'|>'>|\"d|e".toList =
    ["a>".toList, "Array<b|'c\\'|>'>".toList, "\"d|e".toList] := by decide

end PayloadTypes.TypeText
