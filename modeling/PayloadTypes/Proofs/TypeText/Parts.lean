import PayloadTypes.Proofs.TypeText.Scan
/-!
# Trimmed parts

Members of unions and arguments of generic types are found the same way: the
text is split at a separator, the parts are trimmed and empty ones are left out.
Pieces that are joined with the separator and any blanks around it are found
again (`trimmedParts_intercalate`).
-/

namespace PayloadTypes.TypeText

open Text (AllBlank IsTrimmed isBlank)

variable {sep : Char} {st : Scan} {s t a b : List Char} {ps : List (List Char)}

/-- The trimmed parts of a text between top-level separators that are not empty. -/
def trimmedParts (sep : Char) (s : List Char) : List (List Char) :=
  ((splitTopLevel sep s).map Text.trim).filter fun p => !p.isEmpty

/-- The text may be a trimmed part: it is trimmed, not empty and without a separator. -/
structure IsPiece (sep : Char) (s : List Char) : Prop where
  /-- It neither starts nor ends with a blank. -/
  trimmed : IsTrimmed s
  /-- It is not empty. -/
  ne_nil : s ≠ []
  /-- It has no top-level separator. -/
  part : IsPart sep (.plain 0) s

theorem isPart_of_not_mem (h : sep ∉ s) : IsPart sep st s := by
  induction s generalizing st with
  | nil => exact isPart_nil
  | cons c s ih =>
    refine isPart_cons.mpr ⟨?_, ih fun hs => h (List.mem_cons_of_mem _ hs)⟩
    rw [← Bool.not_eq_true, Scan.separates_iff]
    rintro ⟨-, rfl, -⟩
    exact h List.mem_cons_self

theorem isPart_of_allBlank (hsep : isBlank sep = false) (h : AllBlank s) : IsPart sep st s := by
  refine isPart_of_not_mem fun hmem => ?_
  rw [h sep hmem] at hsep
  cases hsep

theorem trimmedParts_of_isPart (h : IsPart sep (.plain 0) s) :
    trimmedParts sep s = if Text.trim s = [] then [] else [Text.trim s] := by
  have hs : splitTopLevel sep s = [s] := h
  by_cases hnil : Text.trim s = [] <;> simp [trimmedParts, hs, hnil]

theorem IsPiece.trimmedParts_eq (h : IsPiece sep s) : trimmedParts sep s = [s] := by
  rw [trimmedParts_of_isPart h.part, h.trimmed.trim_eq, if_neg h.ne_nil]

/-- Behind a closed text the separator starts a new part. -/
theorem trimmedParts_append_cons (hsep : isInert sep = true) (h : IsClosed s) :
    trimmedParts sep (s ++ sep :: t) = trimmedParts sep s ++ trimmedParts sep t := by
  simp only [trimmedParts, splitTopLevel_append_cons h hsep, List.map_append, List.filter_append]

/-- Blanks in front of a text belong to no part. -/
theorem trimmedParts_blank_append (hsep : isBlank sep = false) (ha : AllBlank a) :
    trimmedParts sep (a ++ s) = trimmedParts sep s := by
  obtain ⟨p, ps, hs⟩ := exists_splitFrom_eq_cons sep (.plain 0) s
  have hblank : splitFrom sep (.plain 0) a = [a] := isPart_of_allBlank hsep ha
  rw [trimmedParts, trimmedParts, splitTopLevel, splitTopLevel, splitFrom_append, hblank,
    isClosed_of_allBlank ha, hs, glue, List.map_cons, List.map_cons, Text.trim_append_left ha]

/-- Blanks behind a piece belong to no part. -/
theorem IsPiece.trimmedParts_append_blank (h : IsPiece sep s) (hsep : isBlank sep = false)
    (hb : AllBlank b) : trimmedParts sep (s ++ b) = [s] := by
  have hpart : IsPart sep (.plain 0) (s ++ b) :=
    isPart_append.mpr ⟨h.part, isPart_of_allBlank hsep hb⟩
  rw [trimmedParts_of_isPart hpart, Text.trim_append_right hb, h.trimmed.trim_eq,
    if_neg h.ne_nil]

/-- **Joined pieces are found again**, if all but the last are closed. -/
theorem trimmedParts_intercalate (hsep : isInert sep = true) (hblank : isBlank sep = false)
    (ha : AllBlank a) (hb : AllBlank b) (hm : ∀ p ∈ ps, IsPiece sep p)
    (hc : ∀ p ∈ ps.dropLast, IsClosed p) :
    trimmedParts sep ((a ++ sep :: b).intercalate ps) = ps := by
  induction ps with
  | nil => rfl
  | cons p ps ih =>
    have hp := hm p List.mem_cons_self
    cases ps with
    | nil => rw [List.intercalate_singleton]; exact hp.trimmedParts_eq
    | cons q ps =>
      have hpc : IsClosed p := hc p List.mem_cons_self
      have hpa : IsClosed (p ++ a) := hpc.append (isClosed_of_allBlank ha)
      have htail := ih (fun x hx => hm x (List.mem_cons_of_mem _ hx))
        fun x hx => hc x (List.mem_cons_of_mem _ hx)
      calc trimmedParts sep ((a ++ sep :: b).intercalate (p :: q :: ps))
          = trimmedParts sep
              ((p ++ a) ++ sep :: (b ++ (a ++ sep :: b).intercalate (q :: ps))) := by
            rw [List.intercalate_cons_cons]
            simp
        _ = [p] ++ (q :: ps) := by
            rw [trimmedParts_append_cons hsep hpa, hp.trimmedParts_append_blank hblank ha,
              trimmedParts_blank_append hblank hb, htail]

end PayloadTypes.TypeText
