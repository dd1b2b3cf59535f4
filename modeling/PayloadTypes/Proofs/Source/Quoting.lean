import PayloadTypes.Proofs.Text.Escape
import PayloadTypes.Proofs.Text.Trim
import PayloadTypes.Source.Lexeme
import PayloadTypes.Source.Scalar
/-!
# Quoted strings

A text is quoted by doubling its backslashes, putting one in front of each of
its quotes, and quotes around it. The scanner takes such a string to its
closing quote and no further, and its value is the text again, whatever the
text holds: both agree on which quote is the closing one.
-/

namespace PayloadTypes.Source

open Text (escapeWith replacePair)

variable {q : Char} {s : List Char}

/-- The inside of a string in quotes `q`. -/
def escaped (q : Char) (s : List Char) : List Char := escapeWith '\\' q (escapeWith '\\' '\\' s)

/-- The string in quotes `q`. -/
def quoted (q : Char) (s : List Char) : List Char := q :: (escaped q s ++ [q])

/-! ## The inside of a string -/

theorem escaped_backslash_cons (hq : q ≠ '\\') (s : List Char) :
    escaped q ('\\' :: s) = '\\' :: '\\' :: escaped q s := by
  rw [escaped, Text.escapeWith_cons_self, Text.escapeWith_cons_of_ne hq.symm,
    Text.escapeWith_cons_of_ne hq.symm, escaped]

theorem escaped_quote_cons (hq : q ≠ '\\') (s : List Char) :
    escaped q (q :: s) = '\\' :: q :: escaped q s := by
  rw [escaped, Text.escapeWith_cons_of_ne hq, Text.escapeWith_cons_self, escaped]

theorem escaped_cons {c : Char} (hb : c ≠ '\\') (hq : c ≠ q) (s : List Char) :
    escaped q (c :: s) = c :: escaped q s := by
  rw [escaped, Text.escapeWith_cons_of_ne hb, Text.escapeWith_cons_of_ne hq, escaped]

/-- **The inside of a string stands for its text.** The first pass leaves the backslashes doubled,
so the second meets none that stood in front of a quote. -/
@[simp] theorem unescaped_escaped (q : Char) (s : List Char) : unescaped q (escaped q s) = s := by
  rw [unescaped, escaped, Text.replacePair_escapeWith, Text.replacePair_escapeWith]

/-- Nothing new stands in a string but backslashes and its quotes. -/
theorem eq_or_mem_of_mem_quoted {c : Char} (h : c ∈ quoted q s) : c = '\\' ∨ c = q ∨ c ∈ s := by
  rcases List.mem_cons.mp h with rfl | h
  · exact .inr (.inl rfl)
  · rcases List.mem_append.mp h with h | h
    · rcases Text.eq_or_mem_of_mem_escapeWith h with rfl | h
      · exact .inl rfl
      · exact (Text.eq_or_mem_of_mem_escapeWith h).imp_right .inr
    · exact .inr (.inl (List.mem_singleton.mp h))

/-! ## Scanning a string -/

theorem cutString_pair (q d : Char) (s : List Char) :
    cutString q ('\\' :: d :: s) = ('\\' :: d :: (cutString q s).1, (cutString q s).2) := by
  rw [cutString, if_pos rfl]

theorem cutString_close (hq : q ≠ '\\') (s : List Char) : cutString q (q :: s) = ([q], s) := by
  cases s with
  | nil => rfl
  | cons d s => rw [cutString, if_neg hq, if_pos rfl]

theorem cutString_cons {c : Char} (hb : c ≠ '\\') (hq : c ≠ q) (hs : s ≠ []) :
    cutString q (c :: s) = (c :: (cutString q s).1, (cutString q s).2) := by
  cases s with
  | nil => exact absurd rfl hs
  | cons d s => rw [cutString, if_neg hb, if_neg hq]

/-- What may stand between quotes `q`: characters, and backslashes with the character that each
takes with it. -/
inductive StringBody (q : Char) : List Char → Prop
  /-- Nothing. -/
  | nil : StringBody q []
  /-- A character in front that is neither the quote nor a backslash. -/
  | char {c : Char} {s : List Char} (hb : c ≠ '\\') (hq : c ≠ q) (h : StringBody q s) :
      StringBody q (c :: s)
  /-- A backslash in front, with the character behind it. -/
  | pair {s : List Char} (d : Char) (h : StringBody q s) : StringBody q ('\\' :: d :: s)

/-- **A string is scanned to its closing quote.** -/
theorem StringBody.cutString_append (h : StringBody q s) (hq : q ≠ '\\') (rest : List Char) :
    cutString q (s ++ q :: rest) = (s ++ [q], rest) := by
  induction h with
  | nil => exact cutString_close hq rest
  | char hb hc _ ih =>
    rw [List.cons_append, cutString_cons hb hc (by simp), ih]
    rfl
  | pair d _ ih =>
    rw [List.cons_append, List.cons_append, cutString_pair, ih]
    rfl

/-- Escaping leaves no quote on its own. -/
theorem stringBody_escaped (hq : q ≠ '\\') (s : List Char) : StringBody q (escaped q s) := by
  induction s with
  | nil => exact .nil
  | cons c s ih =>
    by_cases hb : c = '\\'
    · subst hb
      rw [escaped_backslash_cons hq]
      exact .pair _ ih
    · by_cases hc : c = q
      · subst hc
        rw [escaped_quote_cons hq]
        exact .pair _ ih
      · rw [escaped_cons hb hc]
        exact .char hb hc ih

/-! ## The value of a string -/

/-- The character is a quote that strings stand in. -/
def IsQuote (q : Char) : Prop := q = '\'' ∨ q = '"'

theorem isQuote_single : IsQuote '\'' := .inl rfl

theorem IsQuote.ne_backslash (hq : IsQuote q) : q ≠ '\\' := by
  rcases hq with rfl | rfl <;> decide

theorem IsQuote.isTrimmed_quoted (hq : IsQuote q) (s : List Char) :
    Text.IsTrimmed (quoted q s) := by
  have hblank : Text.isBlank q = false := by
    rcases hq with rfl | rfl <;> decide
  exact Text.isTrimmed_of_ends hblank hblank

theorem stringLiteral?_quoted (q : Char) (s : List Char) :
    stringLiteral? q (quoted q s) = some (String.ofList s) := by
  have hafter : Text.after? [q] (quoted q s) = some (escaped q s ++ [q]) :=
    Text.after?_append [q] _
  rw [stringLiteral?, hafter, Option.bind_some, Text.before?_append, Option.map_some,
    unescaped_escaped]

theorem stringLiteral?_cons_of_ne {c : Char} (h : q ≠ c) (s : List Char) :
    stringLiteral? q (c :: s) = none := by
  rw [stringLiteral?, Text.after?_cons_of_ne h]
  rfl

/-- A scalar is read off the trimmed text. -/
theorem scalar?_trim (s : List Char) : scalar? (Text.trim s) = scalar? s := by
  rw [scalar?, scalar?, Text.trim_trim]

/-- **The value of a string is the text that was quoted**, in either kind of quotes. -/
theorem scalar?_quoted (hq : IsQuote q) (s : List Char) :
    scalar? (quoted q s) = .ok (some (.text (String.ofList s))) := by
  have hlit : ((stringLiteral? '\'' (quoted q s)).orElse fun _ => stringLiteral? '"' (quoted q s)) =
      some (String.ofList s) := by
    rcases hq with rfl | rfl
    · rw [stringLiteral?_quoted]
      rfl
    · rw [stringLiteral?_quoted, quoted, stringLiteral?_cons_of_ne (by decide)]
      rfl
  simp only [scalar?, (hq.isTrimmed_quoted s).trim_eq, hlit]

end PayloadTypes.Source
