import PayloadTypes.Proofs.Source.Matching
import PayloadTypes.Proofs.Source.Quoting
import PayloadTypes.Proofs.Text.Word
/-!
# Expressions

The text of an expression holds strings that are closed, brackets that match,
and characters that start no comment. Its lexemes do not depend on what follows,
unless that would turn a slash at its end into a comment (`Code.lexemes_append`),
and their brackets match (`Code.matched`). So a bracket around it is closed right
behind it (`Code.enclosed?_append`), and between commas it is one part of a list
(`map_trim_splitCommas_commaList`).
-/

namespace PayloadTypes.Source

open Text (IsTrimmed AllBlank)

variable {commas : Bool} {o c q : Char} {s t p rest current gap : List Char}
variable {ps : List (List Char)}

/-! ## Characters and comments -/

/-- The character starts neither a string nor a comment. -/
def isPlainStart (c : Char) : Bool := c != '\'' && c != '"' && c != '/' && c != '#'

/-- The character means nothing to the scanner: it is plain, no bracket and no comma. -/
def isQuiet (c : Char) : Bool := isPlainStart c && depthChange c == 0 && c != ','

/-- A comment starts in front of the text. -/
def startsComment : List Char → Bool
  | [] => false
  | [c] => c == '#'
  | c :: d :: _ => c == '/' && (d == '/' || d == '*') || c == '#' && d != '['

theorem cutComment?_eq_none_iff : cutComment? s = none ↔ startsComment s = false := by
  match s with
  | [] => simp [cutComment?, startsComment]
  | [c] => simp [cutComment?, startsComment]
  | c :: d :: s =>
    rw [cutComment?, startsComment]
    split
    · next h => simp [h]
    · next h =>
      split
      · next h' => rcases h' with h' | h' <;> simp [h']
      · next h' =>
        rw [not_or] at h'
        simpa using ⟨fun hc => ⟨fun hd => h'.1 ⟨hc, hd⟩, fun hd => h ⟨hc, hd⟩⟩,
          fun hc => by simpa [hc] using h'.2⟩

theorem startsComment_of_isPlainStart (h : isPlainStart c = true) (s : List Char) :
    startsComment (c :: s) = false := by
  simp only [isPlainStart, Bool.and_eq_true, bne_iff_ne] at h
  cases s with
  | nil => simp [startsComment, h]
  | cons d s => simp [startsComment, h]

/-- The text does not go on with a comment of which the slash stands in front of it. -/
def EndsSlash (rest : List Char) : Prop := ∀ d ∈ rest.head?, d ≠ '/' ∧ d ≠ '*'

theorem EndsSlash.cons (hc : c ≠ '/') (hstar : c ≠ '*') (s : List Char) : EndsSlash (c :: s) := by
  rintro d ⟨⟩
  exact ⟨hc, hstar⟩

theorem IsOpener.endsSlash_closer (ho : IsOpener o) (s : List Char) :
    EndsSlash (closer o :: s) := by
  rcases ho with rfl | rfl | rfl <;> exact .cons (by decide) (by decide) s

/-- What starts no comment starts none before such a text either. -/
theorem startsComment_append (h : startsComment (c :: s) = false) (hrest : EndsSlash rest) :
    startsComment (c :: (s ++ rest)) = false := by
  cases s with
  | cons d s => exact h
  | nil =>
    have hhash : c ≠ '#' := by simpa [startsComment] using h
    cases rest with
    | nil => exact h
    | cons d rest =>
      obtain ⟨hslash, hstar⟩ := hrest d rfl
      simp [startsComment, hhash, hslash, hstar]

theorem lexemes_cons_of_not_startsComment (hq : ¬ IsQuote c)
    (h : startsComment (c :: s) = false) : lexemes (c :: s) = .char c :: lexemes s := by
  rw [lexemes_cons, cutLexeme, if_neg (show ¬ (c = '\'' ∨ c = '"') from hq),
    cutComment?_eq_none_iff.mpr h]

theorem not_isQuote_of_isPlainStart (h : isPlainStart c = true) : ¬ IsQuote c := by
  simp only [isPlainStart, Bool.and_eq_true, bne_iff_ne] at h
  simp [IsQuote, h]

theorem lexemes_cons_of_isPlainStart (h : isPlainStart c = true) (s : List Char) :
    lexemes (c :: s) = .char c :: lexemes s :=
  lexemes_cons_of_not_startsComment (not_isQuote_of_isPlainStart h)
    (startsComment_of_isPlainStart h s)

theorem lexemes_string (hq : IsQuote q) (ht : StringBody q t) (s : List Char) :
    lexemes (q :: (t ++ q :: s)) = .string (q :: (t ++ [q])) :: lexemes s := by
  rw [lexemes_cons, cutLexeme, if_pos (show q = '\'' ∨ q = '"' from hq),
    ht.cutString_append hq.ne_backslash]

theorem IsOpener.isPlainStart (ho : IsOpener o) : isPlainStart o = true := by
  rcases ho with rfl | rfl | rfl <;> decide

theorem IsOpener.isPlainStart_closer (ho : IsOpener o) :
    Source.isPlainStart (closer o) = true := by
  rcases ho with rfl | rfl | rfl <;> decide

theorem IsOpener.lexemes_cons (ho : IsOpener o) (s : List Char) :
    lexemes (o :: s) = .char o :: lexemes s :=
  lexemes_cons_of_isPlainStart ho.isPlainStart s

theorem IsOpener.lexemes_closer_cons (ho : IsOpener o) (s : List Char) :
    lexemes (closer o :: s) = .char (closer o) :: lexemes s :=
  lexemes_cons_of_isPlainStart ho.isPlainStart_closer s

/-! ## Code -/

/-- The text has no comments, its strings are closed, its brackets match, and commas stand outside
of its brackets or not. -/
inductive Code : (commas : Bool) → List Char → Prop
  /-- Nothing. -/
  | nil {commas : Bool} : Code commas []
  /-- A string in front. -/
  | string {commas : Bool} {q : Char} {t s : List Char} (hq : IsQuote q) (ht : StringBody q t)
      (hs : Code commas s) : Code commas (q :: (t ++ q :: s))
  /-- A character in front that is neither a quote nor a bracket and starts no comment. -/
  | char {commas : Bool} {c : Char} {s : List Char} (hq : ¬ IsQuote c) (hd : depthChange c = 0)
      (hcomma : c = ',' → commas = true) (hcomment : startsComment (c :: s) = false)
      (hs : Code commas s) : Code commas (c :: s)
  /-- Code in brackets in front. -/
  | group {commas : Bool} {o : Char} {t s : List Char} (ho : IsOpener o) (ht : Code true t)
      (hs : Code commas s) : Code commas (o :: (t ++ closer o :: s))

/-- **What follows does not change the lexemes**, unless it makes a comment of the last slash. -/
theorem Code.lexemes_append (h : Code commas s) (hrest : EndsSlash rest) :
    lexemes (s ++ rest) = lexemes s ++ lexemes rest := by
  induction h generalizing rest with
  | nil => simp
  | string hq ht _ ih =>
    rw [List.cons_append, List.append_assoc, List.cons_append, lexemes_string hq ht,
      lexemes_string hq ht, ih hrest, List.cons_append]
  | char hq _ _ hcomment _ ih =>
    rw [List.cons_append,
      lexemes_cons_of_not_startsComment hq (startsComment_append hcomment hrest),
      lexemes_cons_of_not_startsComment hq hcomment, ih hrest, List.cons_append]
  | group ho _ _ iht ihs =>
    -- what follows the inner text is its closing bracket, here and in the longer text
    rw [List.cons_append, List.append_assoc, List.cons_append, ho.lexemes_cons, ho.lexemes_cons,
      iht (ho.endsSlash_closer _), iht (ho.endsSlash_closer _), ho.lexemes_closer_cons,
      ho.lexemes_closer_cons, ihs hrest]
    simp

/-- **The brackets of code match.** -/
theorem Code.matched (h : Code commas s) : Matched commas (lexemes s) := by
  induction h with
  | nil => simpa using Matched.nil
  | string hq ht _ ih =>
    rw [lexemes_string hq ht]
    exact .string _ ih
  | char hq hd hcomma hcomment _ ih =>
    rw [lexemes_cons_of_not_startsComment hq hcomment]
    exact .char hd hcomma ih
  | group ho ht _ iht ihs =>
    rw [ho.lexemes_cons, ht.lexemes_append (ho.endsSlash_closer _), ho.lexemes_closer_cons]
    exact .group ho iht ihs

/-- **A bracket around code is closed right behind it.** -/
theorem Code.enclosed?_append (h : Code commas s) (ho : IsOpener o) (rest : List Char) :
    enclosed? o (s ++ closer o :: rest) = some (s, rest) := by
  rw [enclosed?, h.lexemes_append (ho.endsSlash_closer rest), ho.lexemes_closer_cons,
    h.matched.enclosedFrom_append ho, enclosedFrom_closer_zero (ho.ne_closer ho)]
  simp [addEnclosed]

/-- Characters that mean nothing to the scanner may stand in front of code. -/
theorem Code.quiet_append (h : ∀ c ∈ s, isQuiet c = true) (ht : Code commas t) :
    Code commas (s ++ t) := by
  induction s with
  | nil => exact ht
  | cons c s ih =>
    have hquiet := h c List.mem_cons_self
    simp only [isQuiet, Bool.and_eq_true, beq_iff_eq, bne_iff_ne] at hquiet
    obtain ⟨⟨hc, hd⟩, hcomma⟩ := hquiet
    exact .char (not_isQuote_of_isPlainStart hc) hd (fun heq => absurd heq hcomma)
      (startsComment_of_isPlainStart hc _) (ih fun x hx => h x (List.mem_cons_of_mem _ hx))

/-- Code without commas outside of its brackets does not end with one. -/
theorem Code.getLast?_ne_comma (h : Code false s) : ∀ c ∈ s.getLast?, c ≠ ',' := by
  -- The induction runs on the index `false`: in a group it may change, behind the piece it may not.
  generalize hb : false = commas at h
  induction h with
  | nil => exact fun _ hc => by cases hc
  | @string _ q t s hq _ _ ih =>
    -- Each piece ends with a character of its own kind, and none of these is a comma.
    have hfirst : ∀ c ∈ (q :: t ++ [q]).getLast?, c ≠ ',' := by
      rw [List.getLast?_concat]
      rintro c ⟨⟩ rfl
      rcases hq with hq | hq <;> cases hq
    simpa using Text.forall_mem_getLast?_append hfirst (ih hb)
  | @char _ c s _ _ hcomma _ _ ih =>
    have hfirst : ∀ d ∈ [c].getLast?, d ≠ ',' := by
      rintro d ⟨⟩ heq
      exact absurd (hcomma heq) (by simp [← hb])
    exact Text.forall_mem_getLast?_append hfirst (ih hb)
  | @group _ o t s ho _ _ _ ih =>
    have hfirst : ∀ c ∈ (o :: t ++ [closer o]).getLast?, c ≠ ',' := by
      rw [List.getLast?_concat]
      rintro c ⟨⟩ heq
      have := heq ▸ ho.depthChange_closer
      cases this
    simpa using Text.forall_mem_getLast?_append hfirst (ih hb)

/-! ## Lists of expressions -/

/-- The text may be a part of a list: it is trimmed, not empty, and code without a comma of its
own. -/
structure IsExpression (s : List Char) : Prop where
  /-- It neither starts nor ends with a blank. -/
  trimmed : IsTrimmed s
  /-- It is not empty. -/
  ne_nil : s ≠ []
  /-- It is code, and no comma stands outside of its brackets. -/
  code : Code false s

/-- Texts with a comma and a gap between them. -/
def commaList (gap : List Char) (ps : List (List Char)) : List Char := Text.join (',' :: gap) ps

theorem commaList_cons_cons (gap p r : List Char) (ps : List (List Char)) :
    commaList gap (p :: r :: ps) = p ++ ',' :: (gap ++ commaList gap (r :: ps)) := by
  simp [commaList, Text.join, List.intercalate_cons_cons]

theorem commaList_singleton (gap p : List Char) : commaList gap [p] = p := by
  simp [commaList, Text.join]

theorem isQuiet_of_isBlank (h : Text.isBlank c = true) : isQuiet c = true := by
  have hmarks : (['\'', '"', '/', '#', '(', '[', '\x7b', ')', ']', '\x7d', ','].all
      fun x => !Text.isBlank x) = true := by decide
  have hne : ∀ x ∈ ['\'', '"', '/', '#', '(', '[', '\x7b', ')', ']', '\x7d', ','], c ≠ x := by
    rintro x hx rfl
    simpa [h] using List.all_eq_true.mp hmarks c hx
  simp only [List.forall_mem_cons, List.not_mem_nil, false_implies, implies_true, and_true] at hne
  simp [isQuiet, isPlainStart, depthChange, hne]

theorem code_comma_append (hgap : AllBlank gap) (hs : Code true s) :
    Code true (',' :: (gap ++ s)) :=
  .char (by simp [IsQuote]) (by decide) (fun _ => rfl) (startsComment_of_isPlainStart (by decide) _)
    (.quiet_append (fun c hc => isQuiet_of_isBlank (hgap c hc)) hs)

/-- Commas may be allowed. -/
theorem Code.allow (h : Code commas s) : Code true s := by
  induction h with
  | nil => exact .nil
  | string hq ht _ ih => exact .string hq ht ih
  | char hq hd _ hcomment _ ih => exact .char hq hd (fun _ => rfl) hcomment ih
  | group ho ht _ _ ih => exact .group ho ht ih

theorem Code.append (hs : Code commas s) (ht : Code commas t) (h : EndsSlash t) :
    Code commas (s ++ t) := by
  induction hs with
  | nil => exact ht
  | string hq hu _ ih =>
    rw [List.cons_append, List.append_assoc, List.cons_append]
    exact .string hq hu (ih ht)
  | char hq hd hcomma hcomment _ ih =>
    exact .char hq hd hcomma (startsComment_append hcomment h) (ih ht)
  | group ho hu _ _ ih =>
    rw [List.cons_append, List.append_assoc, List.cons_append]
    exact .group ho hu (ih ht)

/-- A list of expressions is code. -/
theorem code_commaList (hgap : AllBlank gap) (h : ∀ p ∈ ps, IsExpression p) :
    Code true (commaList gap ps) := by
  induction ps with
  | nil => exact .nil
  | cons p ps ih =>
    have hp := (h p List.mem_cons_self).code.allow
    cases ps with
    | nil => rwa [commaList_singleton]
    | cons r ps =>
      rw [commaList_cons_cons]
      exact hp.append (code_comma_append hgap (ih fun x hx => h x (List.mem_cons_of_mem _ hx)))
        (.cons (by decide) (by decide) _)

theorem isPlainStart_of_isQuiet (h : isQuiet c = true) : isPlainStart c = true := by
  simp only [isQuiet, Bool.and_eq_true] at h
  exact h.1.1

/-- Characters that start nothing are lexemes of their own. -/
theorem lexemes_append_of_isPlainStart (h : ∀ c ∈ s, isPlainStart c = true) (t : List Char) :
    lexemes (s ++ t) = s.map Lexeme.char ++ lexemes t := by
  induction s with
  | nil => rfl
  | cons c s ih =>
    have hc := h c List.mem_cons_self
    rw [List.cons_append, lexemes_cons_of_isPlainStart hc,
      ih fun x hx => h x (List.mem_cons_of_mem _ hx)]
    rfl

theorem matched_of_isQuiet (h : ∀ c ∈ s, isQuiet c = true) :
    Matched commas (s.map Lexeme.char) := by
  have hcode : Code commas s := by simpa using Code.quiet_append h .nil
  have hlex := lexemes_append_of_isPlainStart (fun c hc => isPlainStart_of_isQuiet (h c hc)) []
  rw [List.append_nil, lexemes_nil, List.append_nil] at hlex
  exact hlex ▸ hcode.matched

/-- Blanks that follow a comma belong to the next part. -/
theorem splitCommasFrom_blanks (hgap : AllBlank gap) (t : List Char) :
    splitCommasFrom 0 [] (lexemes (gap ++ t)) = splitCommasFrom 0 gap (lexemes t) := by
  have hquiet : ∀ c ∈ gap, isQuiet c = true := fun c hc => isQuiet_of_isBlank (hgap c hc)
  have hchars : Lexeme.charsOf (gap.map Lexeme.char) = gap := by
    simp [Lexeme.charsOf, List.flatMap_map, Lexeme.chars]
  have hmatched : Matched false (gap.map Lexeme.char) := matched_of_isQuiet hquiet
  rw [lexemes_append_of_isPlainStart fun c hc => isPlainStart_of_isQuiet (hquiet c hc),
    hmatched.splitCommasFrom_append (Int.le_refl 0) (by simp), hchars, List.nil_append]

theorem splitCommas_nil : splitCommas [] = [] := by
  rw [splitCommas, lexemes_nil]
  rfl

theorem map_trim_splitCommasFrom (hgap : AllBlank gap) (hne : ps ≠ [])
    (h : ∀ p ∈ ps, IsExpression p) (hcurrent : AllBlank current) :
    (splitCommasFrom 0 current (lexemes (commaList gap ps))).map Text.trim = ps := by
  induction ps generalizing current with
  | nil => exact absurd rfl hne
  | cons p ps ih =>
    -- Blanks that are held back from the part in front do not change the part that is cut off.
    have hp := h p List.mem_cons_self
    have htrim : Text.trim (current ++ p) = p := by
      rw [Text.trim_append_left hcurrent, hp.trimmed.trim_eq]
    have hfirst := hp.code.matched.splitCommasFrom_append (Int.le_refl 0) (by simp) current
    rw [charsOf_lexemes] at hfirst
    cases ps with
    | nil =>
      have := hfirst []
      rw [List.append_nil] at this
      rw [commaList_singleton, this, splitCommasFrom, htrim, if_neg hp.ne_nil, List.map_singleton,
        htrim]
    | cons r ps =>
      rw [commaList_cons_cons, hp.code.lexemes_append (.cons (by decide) (by decide) _), hfirst,
        lexemes_cons_of_isPlainStart (by decide), splitCommasFrom, if_pos ⟨rfl, rfl⟩, List.map_cons,
        htrim, splitCommasFrom_blanks hgap]
      exact congrArg (p :: ·) (ih (List.cons_ne_nil _ _)
        (fun x hx => h x (List.mem_cons_of_mem _ hx)) hgap)

/-- **The parts of a list of expressions are the expressions.** -/
theorem map_trim_splitCommas_commaList (hgap : AllBlank gap) (h : ∀ p ∈ ps, IsExpression p) :
    (splitCommas (commaList gap ps)).map Text.trim = ps := by
  by_cases hne : ps = []
  · subst hne
    exact congrArg (List.map Text.trim) splitCommas_nil
  · exact map_trim_splitCommasFrom hgap hne h Text.allBlank_nil

end PayloadTypes.Source
