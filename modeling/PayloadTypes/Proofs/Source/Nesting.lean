import PayloadTypes.Proofs.Source.Expression
/-!
# Nested texts

A text is nested when it is put together of quoted strings, brackets around
nested texts, and characters that start neither a string nor a comment. It is
code, so a bracket around it is closed behind it (`Nested.enclosed?_append`),
and without commas of its own it is one part of a list
(`splitCommas_itemList`). Unlike code, nested texts may be put one behind the
other: none of them ends with half of a comment mark.
-/

namespace PayloadTypes.Source

open Text (IsTrimmed)

variable {commas : Bool} {o q : Char} {s t : List Char} {ps : List (List Char)}

/-! ## Nested texts -/

/-- The text is nested, with `commas` outside of its brackets or without. -/
inductive Nested : (commas : Bool) → List Char → Prop
  /-- Nothing. -/
  | nil {commas : Bool} : Nested commas []
  /-- A string in front. -/
  | string {commas : Bool} {q : Char} {s : List Char} (t : List Char) (hq : IsQuote q)
      (hs : Nested commas s) : Nested commas (quoted q t ++ s)
  /-- A character in front that is no bracket. -/
  | char {commas : Bool} {c : Char} {s : List Char} (hc : isPlainStart c = true)
      (hd : depthChange c = 0) (hcomma : c = ',' → commas = true) (hs : Nested commas s) :
      Nested commas (c :: s)
  /-- A nested text in brackets in front. -/
  | group {commas : Bool} {o : Char} {t s : List Char} (ho : IsOpener o) (ht : Nested true t)
      (hs : Nested commas s) : Nested commas (o :: (t ++ closer o :: s))

namespace Nested

theorem append (hs : Nested commas s) (ht : Nested commas t) : Nested commas (s ++ t) := by
  induction hs with
  | nil => exact ht
  | string u hq _ ih =>
    rw [List.append_assoc]
    exact .string u hq (ih ht)
  | char hc hd hcomma _ ih => exact .char hc hd hcomma (ih ht)
  | group ho hu _ _ ih =>
    rw [List.cons_append, List.append_assoc, List.cons_append]
    exact .group ho hu (ih ht)

/-- Commas may be allowed. -/
theorem allow (hs : Nested commas s) : Nested true s := by
  induction hs with
  | nil => exact .nil
  | string u hq _ ih => exact .string u hq ih
  | char hc hd _ _ ih => exact .char hc hd (fun _ => rfl) ih
  | group ho hu _ _ ih => exact .group ho hu ih

theorem quoted (hq : IsQuote q) (t : List Char) : Nested commas (quoted q t) := by
  simpa using Nested.string t hq Nested.nil

/-- A text in brackets alone. -/
theorem bracketed (ho : IsOpener o) (ht : Nested true t) : Nested commas (o :: (t ++ [closer o])) :=
  .group ho ht .nil

/-- Characters that mean nothing to the scanner are nested. -/
theorem of_isQuiet (h : ∀ c ∈ s, isQuiet c = true) : Nested commas s := by
  induction s with
  | nil => exact .nil
  | cons c s ih =>
    have hquiet := h c List.mem_cons_self
    simp only [isQuiet, Bool.and_eq_true, beq_iff_eq, bne_iff_ne] at hquiet
    obtain ⟨⟨hc, hd⟩, hcomma⟩ := hquiet
    exact .char hc hd (fun heq => absurd heq hcomma)
      (ih fun x hx => h x (List.mem_cons_of_mem _ hx))

end Nested

/-- Nested texts are code. -/
theorem Nested.code (h : Nested commas s) : Code commas s := by
  induction h with
  | nil => exact .nil
  | string u hq _ ih =>
    rw [Source.quoted, List.cons_append, List.append_assoc]
    exact .string hq (stringBody_escaped hq.ne_backslash u) ih
  | char hc hd hcomma _ ih =>
    exact .char (not_isQuote_of_isPlainStart hc) hd hcomma (startsComment_of_isPlainStart hc _) ih
  | group ho _ _ iht ihs => exact .group ho iht ihs

/-- **A bracket around a nested text is closed right behind it.** -/
theorem Nested.enclosed?_append (h : Nested commas s) (ho : IsOpener o) (rest : List Char) :
    enclosed? o (s ++ closer o :: rest) = some (s, rest) :=
  h.code.enclosed?_append ho rest

/-! ## Lists -/

/-- The text may be a part of a list: it is trimmed, not empty and without a comma of its own. -/
structure IsItem (s : List Char) : Prop where
  /-- It neither starts nor ends with a blank. -/
  trimmed : IsTrimmed s
  /-- It is not empty. -/
  ne_nil : s ≠ []
  /-- No comma stands outside of its brackets. -/
  nested : Nested false s

/-- The items of a list, with commas between them. -/
def itemList (ps : List (List Char)) : List Char := Text.join [',', ' '] ps

theorem itemList_cons_cons (p r : List Char) (ps : List (List Char)) :
    itemList (p :: r :: ps) = p ++ ',' :: ' ' :: itemList (r :: ps) := by
  simp [itemList, Text.join, List.intercalate_cons_cons]

theorem itemList_singleton (p : List Char) : itemList [p] = p := by
  simp [itemList, Text.join]

theorem nested_itemList (h : ∀ p ∈ ps, IsItem p) : Nested true (itemList ps) := by
  induction ps with
  | nil => exact .nil
  | cons p ps ih =>
    have hp := (h p List.mem_cons_self).nested.allow
    cases ps with
    | nil => rwa [itemList_singleton]
    | cons r ps =>
      rw [itemList_cons_cons]
      exact hp.append (.char (by decide) (by decide) (fun _ => rfl)
        (.char (by decide) (by decide) (fun _ => rfl)
          (ih fun x hx => h x (List.mem_cons_of_mem _ hx))))

/-- **The parts of a list are its items.** -/
theorem splitCommas_itemList (h : ∀ p ∈ ps, IsItem p) :
    (splitCommas (itemList ps)).map Text.trim = ps :=
  map_trim_splitCommas_commaList Text.allBlank_space fun p hp =>
    ⟨(h p hp).trimmed, (h p hp).ne_nil, (h p hp).nested.code⟩

end PayloadTypes.Source
