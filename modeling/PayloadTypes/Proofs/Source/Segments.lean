import PayloadTypes.Proofs.Source.Scanned
/-!
# The parts of a list

A list is split at the commas outside of all brackets, strings and comments, and
a comment leaves one blank or line break behind. Nothing else of the text is lost
but a blank last part, and nothing is added. To take a comment away makes no new
one (`Scanned.bare`), and no string, and neither does a cut at a comma
(`Scanned.part`); so a part is scanned as it was in the list, and to split it once
more gives the part (`splitCommas_splits`).
-/

namespace PayloadTypes.Source

open Text (AllBlank)

variable {c : Char} {s cs : List Char} {l : Lexeme} {a b p ls row last : List Lexeme}
variable {front : List (List Lexeme)}

/-! ## Comments taken away -/

/-- A comment becomes a line break if it ends in one, and a blank otherwise. -/
def Lexeme.bare : Lexeme → Lexeme
  | .comment cs => if cs.getLast? = some '\n' then .char '\n' else .char ' '
  | .string cs => .string cs
  | .char c => .char c

theorem bare_comment : (Lexeme.comment cs).bare = .char (commentMark cs) := by
  rw [Lexeme.bare, commentMark]
  split <;> rfl

theorem commentMark_eq (cs : List Char) : commentMark cs = '\n' ∨ commentMark cs = ' ' := by
  rw [commentMark]
  split
  · exact .inl rfl
  · exact .inr rfl

/-- The mark of a comment means nothing to the scanner. -/
theorem isQuiet_commentMark (cs : List Char) : isQuiet (commentMark cs) = true := by
  rcases commentMark_eq cs with h | h <;> rw [h] <;> decide

@[simp] theorem bare_bare (l : Lexeme) : l.bare.bare = l.bare := by
  cases l with
  | comment cs => rw [bare_comment, Lexeme.bare]
  | string cs | char c => rfl

/-- No comment begins with what makes an attribute of a hash. -/
theorem startsComment_commentMark {d : Char} (hd : d ≠ '[')
    (h : startsComment (c :: d :: s) = false) (cs t : List Char) :
    startsComment (c :: commentMark cs :: t) = false := by
  have hhash : c ≠ '#' := by
    rintro rfl
    simp [startsComment, hd] at h
  rcases commentMark_eq cs with hm | hm <;> simp [hm, startsComment, hhash]

/-- What starts no comment in front of one starts none in front of its mark. -/
theorem Scanned.startsComment_bare (hs : Scanned s ls) (h : startsComment (c :: s) = false) :
    startsComment (c :: Lexeme.charsOf (ls.map Lexeme.bare)) = false := by
  cases hs with
  | nil | string | openString | char => exact h
  | comment hw =>
    rw [List.map_cons, bare_comment]
    cases hw <;> exact startsComment_commentMark (by decide) h _ _
  | openComment hw =>
    rw [List.map_cons, bare_comment]
    cases hw <;> exact startsComment_commentMark (by decide) h _ _

/-- **To take comments away makes no new string and no new comment.** -/
theorem Scanned.bare (h : Scanned s row) :
    Scanned (Lexeme.charsOf (row.map Lexeme.bare)) (row.map Lexeme.bare) := by
  -- The one character that stands for a comment starts neither a string nor a comment.
  have hmark : ∀ {cs : List Char} {ls : List Lexeme}, Scanned (Lexeme.charsOf ls) ls →
      Scanned (Lexeme.charsOf (.char (commentMark cs) :: ls)) (.char (commentMark cs) :: ls) := by
    intro cs ls hs
    have hplain := isPlainStart_of_isQuiet (isQuiet_commentMark cs)
    exact .char (not_isQuote_of_isPlainStart hplain) (startsComment_of_isPlainStart hplain _) hs
  induction h with
  | nil => exact .nil
  | string hq ht _ ih =>
    have := Scanned.string hq ht ih
    simpa [charsOf_cons, Lexeme.chars, Lexeme.bare] using this
  | openString hq ht =>
    have := Scanned.openString hq ht
    simpa [Lexeme.charsOf, Lexeme.chars, Lexeme.bare] using this
  | comment _ _ ih =>
    rw [List.map_cons, bare_comment]
    exact hmark ih
  | openComment =>
    rw [List.map_singleton, bare_comment]
    exact hmark .nil
  | char hq hcomment hs ih => exact .char hq (hs.startsComment_bare hcomment) ih

/-! ## Parts -/

/-- How a lexeme changes the depth of brackets. -/
def Lexeme.depthChange : Lexeme → Int
  | .char c => Source.depthChange c
  | .string _ => 0
  | .comment _ => 0

/-- The depth of brackets behind a row. -/
def level : List Lexeme → Int
  | [] => 0
  | l :: row => l.depthChange + level row

/-- No comma of the row is outside of all brackets. -/
def IsPart (row : List Lexeme) : Prop := ∀ a b, row = a ++ .char ',' :: b → level a ≠ 0

/-- The row is cut into these parts, the last one apart, at the commas that are outside of all
brackets. -/
inductive IsSplit :
    (row : List Lexeme) → (front : List (List Lexeme)) → (last : List Lexeme) → Prop
  /-- There is no such comma. -/
  | last {p : List Lexeme} (hp : IsPart p) : IsSplit p [] p
  /-- The first such comma is behind `p`. -/
  | cut {p row last : List Lexeme} {front : List (List Lexeme)} (hp : IsPart p)
      (hlevel : level p = 0) (h : IsSplit row front last) :
      IsSplit (p ++ .char ',' :: row) (p :: front) last

theorem level_concat (row : List Lexeme) (l : Lexeme) :
    level (row ++ [l]) = level row + l.depthChange := by
  induction row with
  | nil => simp [level]
  | cons x row ih => rw [List.cons_append, level, level, ih, Int.add_assoc]

theorem isPart_nil : IsPart [] := by
  intro a b h
  cases a <;> cases h

theorem IsPart.concat (h : IsPart row) (hl : l = .char ',' → level row ≠ 0) :
    IsPart (row ++ [l]) := by
  intro a b hab
  rcases List.eq_nil_or_concat b with rfl | ⟨b, d, rfl⟩
  · obtain ⟨rfl, hlast⟩ := List.append_inj' hab rfl
    exact hl (List.cons.inj hlast).1
  · rw [List.concat_eq_append, ← List.cons_append, ← List.append_assoc] at hab
    exact h a b (List.append_inj' hab rfl).1

/-- A part stands in the row, in front of a comma or at the end. -/
theorem IsSplit.exists_eq (h : IsSplit row front last) (hp : p ∈ front ++ [last]) :
    IsPart p ∧ ∃ a b, row = a ++ (p ++ b) ∧ (b = [] ∨ ∃ b', b = .char ',' :: b') := by
  induction h with
  | last hlast =>
    obtain rfl := List.mem_singleton.mp hp
    exact ⟨hlast, [], [], by simp, .inl rfl⟩
  | @cut q row last front hq _ _ ih =>
    rcases List.mem_cons.mp hp with rfl | hp
    · exact ⟨hq, [], _, rfl, .inr ⟨row, rfl⟩⟩
    · obtain ⟨hpart, a, b, rfl, hb⟩ := ih hp
      exact ⟨hpart, q ++ .char ',' :: a, b, by simp, hb⟩

/-- A row without such a comma is one part. -/
theorem IsSplit.of_isPart (h : IsSplit row front last) (hrow : IsPart row) :
    front = [] ∧ last = row := by
  cases h with
  | last => exact ⟨rfl, rfl⟩
  | cut _ hlevel _ => exact absurd hlevel (hrow _ _ rfl)

/-- **The parts with commas between them are the row.** -/
theorem IsSplit.join_eq (h : IsSplit row front last) :
    Text.join [','] ((front ++ [last]).map Lexeme.charsOf) = Lexeme.charsOf row := by
  induction h with
  | last => exact List.intercalate_singleton
  | @cut p row last front _ _ _ ih =>
    obtain ⟨q, qs, hqs⟩ := List.exists_cons_of_ne_nil (l := front ++ [last]) (by simp)
    rw [hqs] at ih
    rw [List.cons_append, hqs, List.map_cons, List.map_cons, Text.join, List.intercalate_cons_cons,
      charsOf_append, charsOf_cons, ← ih]
    simp [Text.join, Lexeme.chars]

/-- **What stands up to a comma is scanned as in the list.** -/
theorem Scanned.part (h : Scanned s (a ++ (p ++ b)))
    (hb : b = [] ∨ ∃ b', b = .char ',' :: b') : Scanned (Lexeme.charsOf p) p := by
  have hpart := h.of_append
  rcases hb with rfl | ⟨b, rfl⟩
  · simpa using hpart
  · have hcut := hpart.append_of_startsComment (List.cons_ne_nil _ _) .nil fun d hd => by
      simpa [charsOf_cons, Lexeme.chars, startsComment] using hd
    simpa using hcut

/-! ## Splitting -/

/-- The texts of the parts; a blank last one is left out. -/
def partTexts (front : List (List Lexeme)) (last : List Lexeme) : List (List Char) :=
  front.map Lexeme.charsOf ++
    if Text.trim (Lexeme.charsOf last) = [] then [] else [Lexeme.charsOf last]

theorem partTexts_of_allBlank (h : AllBlank (Lexeme.charsOf last)) :
    partTexts front last = front.map Lexeme.charsOf := by
  rw [partTexts, if_pos (Text.trim_eq_nil h), List.append_nil]

theorem partTexts_of_not_allBlank (h : ¬ AllBlank (Lexeme.charsOf last)) :
    partTexts front last = (front ++ [last]).map Lexeme.charsOf := by
  rw [partTexts, if_neg (mt Text.trim_eq_nil_iff.mp h), List.map_append, List.map_singleton]

theorem exists_of_mem_partTexts (h : s ∈ partTexts front last) :
    ∃ p ∈ front ++ [last], Lexeme.charsOf p = s := by
  by_cases hblank : AllBlank (Lexeme.charsOf last)
  · rw [partTexts_of_allBlank hblank] at h
    obtain ⟨p, hp, hps⟩ := List.mem_map.mp h
    exact ⟨p, List.mem_append_left _ hp, hps⟩
  · rw [partTexts_of_not_allBlank hblank] at h
    exact List.mem_map.mp h

/-- **The splitter cuts a row at these commas**, behind what it has read of the first part. -/
theorem splitCommasFrom_isSplit (hrow : IsPart row) (ls : List Lexeme) :
    ∃ front last, IsSplit (row ++ ls.map Lexeme.bare) front last ∧
      splitCommasFrom (level row) (Lexeme.charsOf row) ls = partTexts front last := by
  induction ls generalizing row with
  | nil => exact ⟨[], row, by simpa using IsSplit.last hrow, by rw [splitCommasFrom]; rfl⟩
  | cons l ls ih =>
    -- a lexeme that does not end the part belongs to it
    have hstep : ∀ l, IsPart (row ++ [l]) → ∃ front last,
        IsSplit (row ++ l :: ls.map Lexeme.bare) front last ∧
          splitCommasFrom (level row + l.depthChange) (Lexeme.charsOf row ++ l.chars) ls =
            partTexts front last := by
      intro l hl
      have := ih hl
      rwa [level_concat, charsOf_append, charsOf_cons, charsOf_nil, List.append_nil,
        List.append_assoc, List.singleton_append] at this
    cases l with
    | string cs =>
      have := hstep (.string cs) (hrow.concat (by simp))
      rwa [Lexeme.depthChange, Int.add_zero] at this
    | comment cs =>
      have hquiet := isQuiet_commentMark cs
      simp only [isQuiet, Bool.and_eq_true, beq_iff_eq, bne_iff_ne] at hquiet
      obtain ⟨⟨-, hzero⟩, hne⟩ := hquiet
      have := hstep (.char (commentMark cs)) (hrow.concat fun h => absurd (by simpa using h) hne)
      rw [Lexeme.depthChange, hzero, Int.add_zero] at this
      rwa [List.map_cons, bare_comment]
    | char c =>
      rw [splitCommasFrom]
      split
      · next hcut =>
        obtain ⟨front, last, hsplit, heq⟩ := ih isPart_nil
        obtain ⟨rfl, hlevel⟩ := hcut
        refine ⟨row :: front, last, .cut hrow hlevel hsplit, ?_⟩
        rw [hlevel]
        exact congrArg (Lexeme.charsOf row :: ·) heq
      · next hcut =>
        refine hstep (.char c) (hrow.concat fun h hlevel => hcut ⟨?_, hlevel⟩)
        simpa using h

/-- The parts of a text are those of its row without comments. -/
theorem exists_isSplit (hrow : Scanned s row) :
    ∃ front last, IsSplit (row.map Lexeme.bare) front last ∧
      splitCommas s = partTexts front last := by
  rw [splitCommas, hrow.lexemes_eq]
  exact splitCommasFrom_isSplit isPart_nil row

/-- **A part is not split again.** -/
theorem IsSplit.splitCommas_eq (h : IsSplit (row.map Lexeme.bare) front last)
    (hrow : Scanned s row) (hp : p ∈ front ++ [last]) (hne : ¬ AllBlank (Lexeme.charsOf p)) :
    splitCommas (Lexeme.charsOf p) = [Lexeme.charsOf p] := by
  obtain ⟨hpart, a, b, heq, hb⟩ := h.exists_eq hp
  have hscanned : Scanned (Lexeme.charsOf p) p := (heq ▸ hrow.bare).part hb
  have hbare : p.map Lexeme.bare = p := by
    have hall : (row.map Lexeme.bare).map Lexeme.bare = row.map Lexeme.bare := by simp
    rw [heq, List.map_append, List.map_append] at hall
    exact (List.append_inj (List.append_inj hall (by simp)).2 (by simp)).1
  obtain ⟨front', last', hsplit, hsplits⟩ := exists_isSplit hscanned
  rw [hbare] at hsplit
  obtain ⟨rfl, rfl⟩ := hsplit.of_isPart hpart
  exact hsplits.trans (partTexts_of_not_allBlank hne)

/-- **Nothing of a list is lost but its comments and a blank last part**, it is cut at the commas
outside of all brackets, and a part that is not blank is not split again. -/
theorem splitCommas_splits (s : List Char) :
    ∃ row front last, Scanned s row ∧ IsSplit (row.map Lexeme.bare) front last ∧
      Text.join [','] ((front ++ [last]).map Lexeme.charsOf) =
        Lexeme.charsOf (row.map Lexeme.bare) ∧
      (¬ AllBlank (Lexeme.charsOf last) ∧ splitCommas s = (front ++ [last]).map Lexeme.charsOf ∨
        AllBlank (Lexeme.charsOf last) ∧ splitCommas s = front.map Lexeme.charsOf) ∧
      ∀ p ∈ splitCommas s, ¬ AllBlank p → splitCommas p = [p] := by
  obtain ⟨front, last, hsplit, hsplits⟩ := exists_isSplit (scanned_lexemes s)
  have hparts : ¬ AllBlank (Lexeme.charsOf last) ∧
        splitCommas s = (front ++ [last]).map Lexeme.charsOf ∨
      AllBlank (Lexeme.charsOf last) ∧ splitCommas s = front.map Lexeme.charsOf := by
    by_cases hblank : AllBlank (Lexeme.charsOf last)
    · exact .inr ⟨hblank, hsplits.trans (partTexts_of_allBlank hblank)⟩
    · exact .inl ⟨hblank, hsplits.trans (partTexts_of_not_allBlank hblank)⟩
  refine ⟨_, front, last, scanned_lexemes s, hsplit, hsplit.join_eq, hparts, fun t ht hne => ?_⟩
  obtain ⟨p, hp, rfl⟩ := exists_of_mem_partTexts (hsplits ▸ ht)
  exact hsplit.splitCommas_eq (scanned_lexemes s) hp hne

-- behind a closing bracket too many no comma is outside of all brackets
example : splitCommas "a # ,\n, ',', ), b, ".toList =
    ["a \n".toList, " ','".toList, " ), b, ".toList] := by decide +kernel

end PayloadTypes.Source
