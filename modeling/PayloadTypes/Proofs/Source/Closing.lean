import PayloadTypes.Proofs.Source.Expression
/-!
# Closing a text

A text may leave a string, a comment or brackets open. Some quote, comment mark
or bracket closes each of them, so behind every opening bracket a text can be
written on until the bracket is closed (`exists_enclosed?`), with closing
characters alone.
-/

namespace PayloadTypes.Source

variable {o c q : Char} {s t w : List Char} {depth : Nat} {ls : List Lexeme}

/-! ## Strings and comments -/

/-- The characters that close what a text leaves open. -/
def closingMarks : List Char := ['\'', '"', ' ', '*', '/', '\n', ')', ']', '\x7d']

theorem StringBody.append (hs : StringBody q s) (ht : StringBody q t) : StringBody q (s ++ t) := by
  induction hs with
  | nil => exact ht
  | char hb hc _ ih => exact .char hb hc ih
  | pair d _ ih => exact .pair d ih

/-- What stands behind a quote that is not closed: the inside of a string, and a backslash with no
character behind it or none. -/
def OpenBody (q : Char) (t : List Char) : Prop :=
  ∃ s x, StringBody q s ∧ (x = [] ∨ x = ['\\']) ∧ t = s ++ x

/-- A text closes the string in front of it, or it leaves the string open. -/
theorem closed_or_openBody (q : Char) (s : List Char) :
    (∃ t r, s = t ++ q :: r ∧ StringBody q t) ∨ OpenBody q s := by
  -- What stands behind a part of a body is open where the body goes on with it.
  have hcons : ∀ {u v : List Char}, (∀ t, StringBody q t → StringBody q (u ++ t)) →
      OpenBody q v → OpenBody q (u ++ v) := by
    rintro u _ hu ⟨s, x, hs, hx, rfl⟩
    exact ⟨u ++ s, x, hu s hs, hx, (List.append_assoc u s x).symm⟩
  -- The cases are those of the scan of a string.
  fun_induction cutString q s with
  | case1 => exact .inr ⟨[], [], .nil, .inl rfl, rfl⟩
  | case2 c =>
    by_cases hb : c = '\\'
    · exact .inr ⟨[], [c], .nil, .inr (by rw [hb]), rfl⟩
    · by_cases hc : c = q
      · exact .inl ⟨[], [], by rw [hc]; rfl, .nil⟩
      · exact .inr ⟨[c], [], .char hb hc .nil, .inl rfl, rfl⟩
  | case3 d s ih =>
    rcases ih with ⟨t, r, rfl, ht⟩ | h
    · exact .inl ⟨'\\' :: d :: t, r, rfl, .pair d ht⟩
    · exact .inr (hcons (u := ['\\', d]) (fun _ ht => .pair d ht) h)
  | case4 d s hb => exact .inl ⟨[], d :: s, rfl, .nil⟩
  | case5 c d s hb hc ih =>
    rcases ih with ⟨t, r, heq, ht⟩ | h
    · exact .inl ⟨c :: t, r, congrArg (c :: ·) heq, .char hb hc ht⟩
    · exact .inr (hcons (u := [c]) (fun _ ht => .char hb hc ht) h)

/-- A text closes the string in front of it, or it can be written on inside of the string. -/
theorem closed_or_stringBody (q : Char) (s : List Char) :
    (∃ t r, s = t ++ q :: r ∧ StringBody q t) ∨
      ∃ x, (x = [] ∨ x = [' ']) ∧ StringBody q (s ++ x) := by
  rcases closed_or_openBody q s with h | ⟨s, x, hs, rfl | rfl, rfl⟩
  · exact .inl h
  · exact .inr ⟨[], .inl rfl, by simpa using hs⟩
  · exact .inr ⟨[' '], .inr rfl, by simpa using hs.append (.pair ' ' .nil)⟩

/-- An end mark of a comment. -/
def IsEndMark (w : List Char) : Prop := w = ['*', '/'] ∨ w = ['\n']

/-- A comment is closed by its mark, in the text or behind it. -/
theorem IsEndMark.closed_or_open (hw : IsEndMark w) (s : List Char) :
    (∃ t r, r.length < s.length ∧ ∀ rest, cutThrough w (s ++ rest) = (t, r ++ rest)) ∨
      ∃ t, ∀ rest, cutThrough w (s ++ (w ++ rest)) = (t, rest) := by
  have hne : w ≠ [] := by
    rcases hw with rfl | rfl <;> exact List.cons_ne_nil _ _
  by_cases hin : w <:+: s
  · obtain ⟨t, r, rfl, hfirst⟩ := Text.exists_first_infix hne hin
    have hpos := List.length_pos_iff.mpr hne
    refine .inl ⟨t ++ w, r, by simp only [List.length_append]; omega, fun rest => ?_⟩
    rw [cutThrough, List.append_assoc, List.append_assoc, Text.cutText?_append hne hfirst]
  · have hacross : ¬ w <:+: s ++ w.dropLast := by
      rcases hw with rfl | rfl
      · exact fun h => hin (Text.infix_of_infix_concat h (by decide))
      · rwa [List.dropLast_singleton, List.append_nil]
    refine .inr ⟨s ++ w, fun rest => ?_⟩
    rw [cutThrough, Text.cutText?_append hne hacross]

/-! ## The lexemes of a text -/

/-- The first lexeme of the text ends in it, whatever follows. -/
def FirstEnds (s : List Char) : Prop :=
  ∃ l r, r.length < s.length ∧ ∀ rest, lexemes (s ++ rest) = l :: lexemes (r ++ rest)

/-- Closing characters put an end to what the text leaves open. -/
def Closable (s : List Char) : Prop :=
  ∃ x ls, (∀ c ∈ x, c ∈ closingMarks) ∧ ∀ rest, lexemes (s ++ (x ++ rest)) = ls ++ lexemes rest

theorem firstEnds_or_closable_string (hq : IsQuote q) (s : List Char) :
    FirstEnds (q :: s) ∨ Closable (q :: s) := by
  rcases closed_or_stringBody q s with ⟨t, r, rfl, ht⟩ | ⟨x, hx, h⟩
  · refine .inl ⟨.string (q :: (t ++ [q])), r, ?_, fun rest => ?_⟩
    · simp only [List.length_cons, List.length_append]
      omega
    · rw [List.cons_append, List.append_assoc, List.cons_append, lexemes_string hq ht]
  · refine .inr ⟨x ++ [q], [.string (q :: (s ++ x ++ [q]))], ?_, fun rest => ?_⟩
    · rcases hq with rfl | rfl <;> rcases hx with rfl | rfl <;> simp [closingMarks]
    · have := lexemes_string hq h rest
      simpa using this

theorem lexemes_of_cutComment? {r : List Char} (hq : ¬ IsQuote c)
    (h : cutComment? (c :: s) = some (w, r)) : lexemes (c :: s) = .comment w :: lexemes r := by
  rw [lexemes_cons, cutLexeme, if_neg (show ¬ (c = '\'' ∨ c = '"') from hq), h]

/-- A comment that starts ends in the text or with a mark behind it. -/
theorem firstEnds_or_closable_comment (hq : ¬ IsQuote c) (h : startsComment (c :: s) = true) :
    FirstEnds (c :: s) ∨ Closable (c :: s) := by
  cases s with
  | nil =>
    obtain rfl : c = '#' := by simpa [startsComment] using h
    refine .inr ⟨['\n'], [.comment ['#', '\n']], by simp [closingMarks],
      fun rest => lexemes_of_cutComment? hq ?_⟩
    simp [cutComment?, cutThrough, Text.cutText?, Text.after?]
  | cons d s =>
    -- A block comment ends at its mark, any other comment at the end of the line.
    by_cases hblock : c = '/' ∧ d = '*'
    · have hcut : ∀ x, cutComment? (c :: d :: x) =
          some (c :: d :: (cutThrough ['*', '/'] x).1, (cutThrough ['*', '/'] x).2) := by
        intro x
        rw [cutComment?, if_pos hblock]
      rcases IsEndMark.closed_or_open (.inl rfl) s with ⟨t, r, hlen, hr⟩ | ⟨t, ht⟩
      · refine .inl ⟨.comment (c :: d :: t), r, ?_, fun rest => lexemes_of_cutComment? hq ?_⟩
        · simp only [List.length_cons]
          omega
        · exact (hcut (s ++ rest)).trans (by rw [hr])
      · refine .inr ⟨['*', '/'], [.comment (c :: d :: t)], by simp [closingMarks], fun rest => ?_⟩
        exact lexemes_of_cutComment? hq ((hcut (s ++ (['*', '/'] ++ rest))).trans (by rw [ht]))
    · have hline : (c = '/' ∧ d = '/') ∨ (c = '#' ∧ d ≠ '[') := by
        simp only [startsComment, Bool.or_eq_true, Bool.and_eq_true, beq_iff_eq, bne_iff_ne] at h
        rcases h with ⟨hc, hd | hd⟩ | h
        · exact .inl ⟨hc, hd⟩
        · exact absurd ⟨hc, hd⟩ hblock
        · exact .inr h
      have hcut : ∀ x, cutComment? (c :: d :: x) = some (cutThrough ['\n'] (c :: d :: x)) := by
        intro x
        rw [cutComment?, if_neg hblock, if_pos hline]
      rcases IsEndMark.closed_or_open (.inr rfl) (c :: d :: s) with ⟨t, r, hlen, hr⟩ | ⟨t, ht⟩
      · refine .inl ⟨.comment t, r, hlen, fun rest => lexemes_of_cutComment? hq ?_⟩
        exact (hcut (s ++ rest)).trans (congrArg some (hr rest))
      · refine .inr ⟨['\n'], [.comment t], by simp [closingMarks],
          fun rest => lexemes_of_cutComment? hq ?_⟩
        exact (hcut (s ++ (['\n'] ++ rest))).trans (congrArg some (ht rest))

/-- A character that starts nothing is a lexeme, but a slash at the end of the text may start a
comment with what follows. -/
theorem firstEnds_or_closable_char (hq : ¬ IsQuote c) (h : startsComment (c :: s) = false) :
    FirstEnds (c :: s) ∨ Closable (c :: s) := by
  have hchar : (∀ rest, startsComment (c :: (s ++ rest)) = false) → FirstEnds (c :: s) :=
    fun h => ⟨.char c, s, by simp, fun rest => lexemes_cons_of_not_startsComment hq (h rest)⟩
  cases s with
  | cons d s => exact .inl (hchar fun _ => h)
  | nil =>
    have hhash : c ≠ '#' := by simpa [startsComment] using h
    by_cases hslash : c = '/'
    · subst hslash
      refine .inr ⟨[' '], [.char '/', .char ' '], by simp [closingMarks], fun rest => ?_⟩
      have hspace : startsComment ('/' :: ' ' :: rest) = false := by simp [startsComment]
      have hrest : lexemes (' ' :: rest) = .char ' ' :: lexemes rest :=
        lexemes_cons_of_isPlainStart (by decide) rest
      exact (lexemes_cons_of_not_startsComment hq hspace).trans (congrArg (_ :: ·) hrest)
    · refine .inl (hchar fun rest => ?_)
      cases rest <;> simp [startsComment, hhash, hslash]

/-- **Every text can be closed**: lexeme by lexeme, the last one by a mark. -/
theorem closable (s : List Char) : Closable s := by
  induction hn : s.length using Nat.strongRecOn generalizing s with
  | ind n ih =>
    cases s with
    | nil => exact ⟨[], [], by simp, fun rest => rfl⟩
    | cons c s =>
      have hfirst : FirstEnds (c :: s) ∨ Closable (c :: s) := by
        by_cases hq : IsQuote c
        · exact firstEnds_or_closable_string hq s
        · cases hcomment : startsComment (c :: s) with
          | true => exact firstEnds_or_closable_comment hq hcomment
          | false => exact firstEnds_or_closable_char hq hcomment
      rcases hfirst with ⟨l, r, hr, hl⟩ | h
      · obtain ⟨x, ls, hx, hls⟩ := ih r.length (hn ▸ hr) r rfl
        refine ⟨x, l :: ls, hx, fun rest => ?_⟩
        rw [hl, hls, List.cons_append]
      · exact h

/-! ## Brackets -/

/-- Closing brackets enough close the one that is looked for. -/
theorem IsOpener.exists_enclosedFrom (ho : IsOpener o) (ls : List Lexeme) (depth : Nat) :
    ∃ n, (enclosedFrom o (closer o) depth
      (ls ++ List.replicate n (.char (closer o)))).isSome := by
  -- On the lexemes, at any depth: one closing bracket for each that is open, one for the last.
  induction ls generalizing depth with
  | nil =>
    induction depth with
    | zero => exact ⟨1, by simp [enclosedFrom_closer_zero (ho.ne_closer ho)]⟩
    | succ depth ih =>
      obtain ⟨n, hn⟩ := ih
      refine ⟨n + 1, ?_⟩
      rw [List.nil_append] at hn ⊢
      rw [List.replicate_succ, enclosedFrom_closer_succ (ho.ne_closer ho), Option.isSome_map, hn]
  | cons l ls ih =>
    by_cases hopen : l = .char o
    · obtain ⟨n, hn⟩ := ih (depth + 1)
      refine ⟨n, ?_⟩
      rw [hopen, List.cons_append, enclosedFrom_opener, Option.isSome_map, hn]
    · by_cases hclose : l = .char (closer o)
      · cases depth with
        | zero =>
          refine ⟨0, ?_⟩
          rw [hclose, List.cons_append, enclosedFrom_closer_zero (ho.ne_closer ho)]
          rfl
        | succ depth =>
          obtain ⟨n, hn⟩ := ih depth
          refine ⟨n, ?_⟩
          rw [hclose, List.cons_append, enclosedFrom_closer_succ (ho.ne_closer ho),
            Option.isSome_map, hn]
      · obtain ⟨n, hn⟩ := ih depth
        refine ⟨n, ?_⟩
        rw [List.cons_append, enclosedFrom_cons_of_ne hopen hclose, Option.isSome_map, hn]

theorem IsOpener.closer_mem_closingMarks (ho : IsOpener o) : closer o ∈ closingMarks := by
  rcases ho with rfl | rfl | rfl <;> decide

/-- **Closing characters close a bracket**, whatever stands behind it. -/
theorem IsOpener.exists_enclosed? (ho : IsOpener o) (s : List Char) :
    ∃ x, (∀ c ∈ x, c ∈ closingMarks) ∧ (enclosed? o (s ++ x)).isSome := by
  -- The marks that leave whole lexemes come first, then brackets, which are lexemes of their own.
  obtain ⟨x, ls, hx, hls⟩ := closable s
  obtain ⟨n, hn⟩ := ho.exists_enclosedFrom ls 0
  have hbrackets : lexemes (List.replicate n (closer o)) =
      List.replicate n (.char (closer o)) := by
    have hplain : ∀ c ∈ List.replicate n (closer o), Source.isPlainStart c = true := by
      intro c hc
      rw [List.eq_of_mem_replicate hc]
      exact ho.isPlainStart_closer
    have := lexemes_append_of_isPlainStart hplain []
    simpa using this
  refine ⟨x ++ List.replicate n (closer o), fun c hc => ?_, ?_⟩
  · rcases List.mem_append.mp hc with hc | hc
    · exact hx c hc
    · rw [List.eq_of_mem_replicate hc]
      exact ho.closer_mem_closingMarks
  · rw [enclosed?, Option.isSome_map, hls, hbrackets, hn]

end PayloadTypes.Source
