import Mathlib.Data.List.Infix
import PayloadTypes.Proofs.Source.LeadingComment
/-!
# What scanning meets

A text is scanned from the left: a quote starts a string that goes to its
closing quote, a comment mark a comment that goes to its end mark, and any other
character stands alone. A string or comment that is not closed goes to the end of
the text. `Scanned` says this of a text and the row of its pieces, without a
scanner, and every text has one such row, that of its lexemes (`scanned_iff`).
Scanning looks one character ahead at most, so a row may be cut off between two
pieces and written on in another way (`Scanned.append_of_startsComment`).
-/

namespace PayloadTypes.Source

variable {c q : Char} {s t w : List Char} {a b ls row : List Lexeme} {l : Lexeme}

/-! ## Rows of pieces -/

theorem charsOf_nil : Lexeme.charsOf [] = [] := rfl

theorem charsOf_cons (l : Lexeme) (ls : List Lexeme) :
    Lexeme.charsOf (l :: ls) = l.chars ++ Lexeme.charsOf ls :=
  List.flatMap_cons

theorem charsOf_append (a b : List Lexeme) :
    Lexeme.charsOf (a ++ b) = Lexeme.charsOf a ++ Lexeme.charsOf b :=
  List.flatMap_append

/-- A comment that the text ends in. -/
inductive OpenComment : List Char → Prop
  /-- A block without its end mark. -/
  | block {t : List Char} (h : ¬ ['*', '/'] <:+: t) : OpenComment ('/' :: '*' :: t)
  /-- Two slashes on the last line. -/
  | line {t : List Char} (h : '\n' ∉ t) : OpenComment ('/' :: '/' :: t)
  /-- A hash on the last line; a bracket would make it an attribute. -/
  | hash {t : List Char} (h : '\n' ∉ t) (hattribute : '[' ∉ t.head?) : OpenComment ('#' :: t)

/-- The pieces that scanning meets in a text, from the left. -/
inductive Scanned : List Char → List Lexeme → Prop
  /-- Nothing. -/
  | nil : Scanned [] []
  /-- A string in front. -/
  | string {q : Char} {t s : List Char} {ls : List Lexeme} (hq : IsQuote q) (ht : StringBody q t)
      (hs : Scanned s ls) : Scanned (q :: (t ++ q :: s)) (.string (q :: (t ++ [q])) :: ls)
  /-- A string that is not closed. -/
  | openString {q : Char} {t : List Char} (hq : IsQuote q) (ht : OpenBody q t) :
      Scanned (q :: t) [.string (q :: t)]
  /-- A comment in front. -/
  | comment {w s : List Char} {ls : List Lexeme} (hw : IsComment w) (hs : Scanned s ls) :
      Scanned (w ++ s) (.comment w :: ls)
  /-- A comment that is not closed. -/
  | openComment {w : List Char} (hw : OpenComment w) : Scanned w [.comment w]
  /-- A character in front that is no quote and starts no comment. -/
  | char {c : Char} {s : List Char} {ls : List Lexeme} (hq : ¬ IsQuote c)
      (hcomment : startsComment (c :: s) = false) (hs : Scanned s ls) :
      Scanned (c :: s) (.char c :: ls)

/-- No character is lost. -/
theorem Scanned.charsOf_eq (h : Scanned s row) : Lexeme.charsOf row = s := by
  induction h with
  | nil => rfl
  | string _ _ _ ih => simp [charsOf_cons, Lexeme.chars, ih]
  | comment _ _ ih | char _ _ _ ih => simp [charsOf_cons, Lexeme.chars, ih]
  | openString | openComment => simp [Lexeme.charsOf, Lexeme.chars]

/-! ## The row of the lexemes -/

/-- The scanner takes an open string to the end of the text. -/
theorem OpenBody.cutString_eq (h : OpenBody q t) : cutString q t = (t, []) := by
  obtain ⟨s, x, hs, hx, rfl⟩ := h
  induction hs with
  | nil =>
    rcases hx with rfl | rfl
    · rfl
    · rw [List.nil_append, cutString]
  | @char c s hb hc _ ih =>
    rw [List.cons_append]
    by_cases hnil : s ++ x = []
    · rw [hnil, cutString]
    · rw [cutString_cons hb hc hnil, ih]
  | pair d _ ih => rw [List.cons_append, List.cons_append, cutString_pair, ih]

theorem cutComment?_block (t : List Char) :
    cutComment? ('/' :: '*' :: t) =
      some ('/' :: '*' :: (cutThrough ['*', '/'] t).1, (cutThrough ['*', '/'] t).2) := by
  simp [cutComment?]

theorem cutComment?_line (t : List Char) :
    cutComment? ('/' :: '/' :: t) = some (cutThrough ['\n'] ('/' :: '/' :: t)) := by
  simp [cutComment?]

theorem cutComment?_hash (h : '[' ∉ t.head?) :
    cutComment? ('#' :: t) = some (cutThrough ['\n'] ('#' :: t)) := by
  cases t with
  | nil => rfl
  | cons d t =>
    have hd : d ≠ '[' := by simpa using h
    simp [cutComment?, hd]

theorem cutThrough_eq_self {m : List Char} (hm : ¬ m <:+: t) : cutThrough m t = (t, []) := by
  have hnone : Text.cutText? m t = none := by
    rw [Option.eq_none_iff_forall_not_mem]
    rintro ⟨x, y⟩ hxy
    exact hm ⟨x, y, (Text.cutText?_eq_some hxy).symm⟩
  rw [cutThrough, hnone]

theorem cutThrough_line (ht : '\n' ∉ t) (s : List Char) :
    cutThrough ['\n'] (t ++ '\n' :: s) = (t ++ ['\n'], s) := by
  have hcut := Text.cutText?_append (t := t) (w := ['\n']) (List.cons_ne_nil _ _)
    (by simpa [List.singleton_infix_iff] using ht) s
  rw [List.singleton_append] at hcut
  rw [cutThrough, hcut]

theorem IsComment.cutComment?_append (hw : IsComment w) (s : List Char) :
    cutComment? (w ++ s) = some (w, s) := by
  cases hw with
  | @block t h =>
    have hcut := Text.cutText?_pair (by decide) h s
    have hthrough : cutThrough ['*', '/'] (t ++ '*' :: '/' :: s) = (t ++ ['*', '/'], s) := by
      rw [cutThrough, hcut]
    simp [cutComment?_block, hthrough]
  | @line t h =>
    have hthrough := cutThrough_line (t := '/' :: '/' :: t) (by simpa using h) s
    simpa [cutComment?_line] using hthrough
  | @hash t h hattribute =>
    have hthrough := cutThrough_line (t := '#' :: t) (by simpa using h) s
    have hhead : '[' ∉ (t ++ '\n' :: s).head? := by
      cases t with
      | nil => simp
      | cons d t => exact hattribute
    simpa [cutComment?_hash hhead] using hthrough

theorem OpenComment.cutComment?_eq (hw : OpenComment w) : cutComment? w = some (w, []) := by
  have hline : ∀ {t : List Char}, '\n' ∉ t → cutThrough ['\n'] t = (t, []) :=
    fun ht => cutThrough_eq_self (by simpa [List.singleton_infix_iff] using ht)
  cases hw with
  | block h => rw [cutComment?_block, cutThrough_eq_self h]
  | line h => rw [cutComment?_line, hline (by simpa using h)]
  | hash h hattribute => rw [cutComment?_hash hattribute, hline (by simpa using h)]

theorem IsComment.not_isQuote (hw : IsComment (c :: s)) : ¬ IsQuote c := by
  cases hw <;> simp [IsQuote]

theorem OpenComment.not_isQuote (hw : OpenComment (c :: s)) : ¬ IsQuote c := by
  cases hw <;> simp [IsQuote]

theorem IsComment.exists_eq_cons (hw : IsComment w) : ∃ c t, w = c :: t := by
  cases hw <;> exact ⟨_, _, rfl⟩

theorem OpenComment.exists_eq_cons (hw : OpenComment w) : ∃ c t, w = c :: t := by
  cases hw <;> exact ⟨_, _, rfl⟩

/-- The scanner meets these pieces. -/
theorem Scanned.lexemes_eq (h : Scanned s row) : lexemes s = row := by
  induction h with
  | nil => exact lexemes_nil
  | string hq ht _ ih => rw [lexemes_string hq ht, ih]
  | @openString q t hq ht =>
    rw [lexemes_cons, cutLexeme, if_pos (show q = '\'' ∨ q = '"' from hq), ht.cutString_eq,
      lexemes_nil]
  | @comment w s _ hw _ ih =>
    obtain ⟨c, t, rfl⟩ := hw.exists_eq_cons
    have hlex := lexemes_of_cutComment? hw.not_isQuote (hw.cutComment?_append s)
    rwa [ih] at hlex
  | openComment hw =>
    obtain ⟨c, t, rfl⟩ := hw.exists_eq_cons
    rw [lexemes_of_cutComment? hw.not_isQuote hw.cutComment?_eq, lexemes_nil]
  | char hq hcomment _ ih => rw [lexemes_cons_of_not_startsComment hq hcomment, ih]

/-- A comment that starts is closed in the text, or the text ends in it. -/
theorem closed_or_openComment (h : startsComment s = true) :
    (∃ w r, s = w ++ r ∧ IsComment w) ∨ OpenComment s := by
  match s, h with
  | [c], h =>
    obtain rfl : c = '#' := by simpa [startsComment] using h
    exact .inr (.hash (by simp) (by simp))
  | c :: d :: s, h =>
    simp only [startsComment, Bool.or_eq_true, Bool.and_eq_true, beq_iff_eq, bne_iff_ne] at h
    -- Two slashes or a hash start a comment up to the end of the line, a slash and a star a block.
    rcases h with ⟨rfl, rfl | rfl⟩ | ⟨rfl, hd⟩
    · by_cases hline : '\n' ∈ s
      · obtain ⟨t, r, rfl, ht⟩ := List.eq_append_cons_of_mem hline
        exact .inl ⟨_, r, by simp, .line ht⟩
      · exact .inr (.line hline)
    · by_cases hmark : ['*', '/'] <:+: s
      · obtain ⟨t, r, rfl, hfirst⟩ := Text.exists_first_infix (List.cons_ne_nil _ _) hmark
        refine .inl ⟨'/' :: '*' :: (t ++ ['*', '/']), r, by simp, .block fun hin => hfirst ?_⟩
        exact hin.trans (List.prefix_append t _).isInfix
      · exact .inr (.block hmark)
    · by_cases hline : '\n' ∈ d :: s
      · obtain ⟨t, r, heq, ht⟩ := List.eq_append_cons_of_mem hline
        refine .inl ⟨'#' :: (t ++ ['\n']), r, by simp [heq], .hash ht ?_⟩
        cases t with
        | nil => simp
        | cons e t =>
          obtain ⟨rfl, -⟩ := List.cons.inj heq
          simpa using hd
      · exact .inr (.hash hline (by simpa using hd))

/-- Every text can be scanned. -/
theorem exists_scanned (s : List Char) : ∃ row, Scanned s row := by
  -- The induction is on the length: a string and a comment take off several characters at once.
  induction hn : s.length using Nat.strongRecOn generalizing s with
  | ind n ih =>
    cases s with
    | nil => exact ⟨[], .nil⟩
    | cons c s =>
      by_cases hq : IsQuote c
      · rcases closed_or_openBody c s with ⟨t, r, rfl, ht⟩ | ht
        · have hshort : r.length < n := by
            simp only [List.length_cons, List.length_append] at hn
            omega
          obtain ⟨ls, hls⟩ := ih _ hshort r rfl
          exact ⟨_, .string hq ht hls⟩
        · exact ⟨_, .openString hq ht⟩
      · cases hcomment : startsComment (c :: s) with
        | true =>
          rcases closed_or_openComment hcomment with ⟨w, r, heq, hw⟩ | hw
          · have hshort : r.length < n := by
              obtain ⟨d, t, rfl⟩ := hw.exists_eq_cons
              rw [← hn, heq, List.length_append, List.length_cons]
              omega
            obtain ⟨ls, hls⟩ := ih _ hshort r rfl
            exact ⟨.comment w :: ls, heq ▸ Scanned.comment hw hls⟩
          · exact ⟨_, .openComment hw⟩
        | false =>
          obtain ⟨ls, hls⟩ := ih s.length (by rw [← hn]; exact Nat.lt_succ_self _) s rfl
          exact ⟨_, .char hq hcomment hls⟩

/-- **Scanning meets the lexemes and nothing else.** -/
theorem scanned_iff : Scanned s row ↔ row = lexemes s := by
  refine ⟨fun h => h.lexemes_eq.symm, ?_⟩
  rintro rfl
  obtain ⟨row, h⟩ := exists_scanned s
  exact h.lexemes_eq.symm ▸ h

theorem scanned_lexemes (s : List Char) : Scanned s (lexemes s) := scanned_iff.mpr rfl

/-! ## Cutting rows off -/

/-- What is left of a row is the row of what is left. -/
theorem Scanned.of_append (h : Scanned s (a ++ b)) : Scanned (Lexeme.charsOf b) b := by
  induction a generalizing s with
  | nil => exact h.charsOf_eq.symm ▸ h
  | cons l a ih =>
    rw [List.cons_append] at h
    generalize hrow : a ++ b = row at h ih
    cases h with
    | string _ _ hs => exact ih hs
    | comment _ hs => exact ih hs
    | char _ _ hs => exact ih hs
    | openString | openComment =>
      obtain ⟨-, rfl⟩ := List.append_eq_nil_iff.mp hrow
      exact .nil

/-- **Scanning looks one character ahead at most**: behind some pieces a text may go on in another
way, if that makes no comment of their last character. -/
theorem Scanned.append_of_startsComment (h : Scanned s (a ++ b)) (hb : b ≠ [])
    (ht : Scanned t row) (hcomment : ∀ d, startsComment (d :: Lexeme.charsOf b) = false →
      startsComment (d :: t) = false) : Scanned (Lexeme.charsOf a ++ t) (a ++ row) := by
  induction a generalizing s with
  | nil => exact ht
  | cons l a ih =>
    rw [List.cons_append] at h ⊢
    rw [charsOf_cons, List.append_assoc]
    generalize hrow : a ++ b = rest at h ih
    have hrest : rest ≠ [] := by
      rw [← hrow]
      exact List.append_ne_nil_of_right_ne_nil a hb
    cases h with
    | @string q u _ _ hq hu hs =>
      have := Scanned.string hq hu (ih hs)
      simpa [Lexeme.chars] using this
    | comment hw hs => exact .comment hw (ih hs)
    | openString | openComment => exact absurd rfl hrest
    | @char c s _ hq hc hs =>
      rw [← hs.charsOf_eq, ← hrow, charsOf_append] at hc
      refine .char hq ?_ (ih hs)
      -- behind the character stands the same one as before, or the place of the cut
      cases hfront : Lexeme.charsOf a with
      | nil =>
        rw [hfront] at hc
        exact hcomment c hc
      | cons d u =>
        rw [hfront] at hc
        exact hc

end PayloadTypes.Source
