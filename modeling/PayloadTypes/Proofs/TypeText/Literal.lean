import PayloadTypes.Generation.Generate
import PayloadTypes.Json.Token
import PayloadTypes.Proofs.Text.Ascii
import PayloadTypes.Proofs.Text.Escape
/-!
# What literals denote

The output language reads a text in single quotes character by character: a
backslash starts an escape, and a line may not end inside. `LiteralBody` is that
grammar with the value of what it reads. A literal is written with a backslash
in front of each quote and of nothing else, so it denotes the text it was made
of exactly when that text holds no backslash and no line end
(`denotes_quoteLiteral_iff`): an escape is longer than what it denotes, and only
that of a quote makes up for it.
-/

namespace PayloadTypes.TypeText

variable {c : Char} {e s v w : List Char} {n : String}

/-! ## Literals of the output language -/

/-- A character that ends a line. -/
def isLineEnd (c : Char) : Bool := c == '\n' || c == '\r' || c == '\u2028' || c == '\u2029'

/-- A line end that no literal may hold as it is. -/
def isHardLineEnd (c : Char) : Bool := c == '\n' || c == '\r'

/-- The letters that denote a control character behind a backslash. -/
def escapeLetters : List (Char × Char) := [
  ('b', '\x08'), ('t', '\t'), ('n', '\n'), ('v', '\x0b'), ('f', '\x0c'), ('r', '\r')]

/-- A character that does not stand for itself behind a backslash. -/
def startsEscape (c : Char) : Bool :=
  c.isDigit || c == 'x' || c == 'u' || isLineEnd c || (escapeLetters.map Prod.fst).contains c

/-- What may stand behind a backslash, and what it denotes there. -/
inductive Escape : List Char → List Char → Prop
  /-- A letter that denotes a control character. -/
  | letter {c d : Char} : (c, d) ∈ escapeLetters → Escape [c] [d]
  /-- A character that stands for itself. -/
  | itself {c : Char} : startsEscape c = false → Escape [c] [c]
  /-- A line end, which is left out. -/
  | lineEnd {c : Char} : isLineEnd c = true → Escape [c] []
  /-- A line end of two characters, which is left out. -/
  | lineEnds : Escape ['\r', '\n'] []
  /-- A character by two hexadecimal digits. -/
  | byte {c : Char} {ds : List Char} : ds.length = 2 → Json.hexNumber? ds = some c.toNat →
      Escape ('x' :: ds) [c]
  /-- A character by four hexadecimal digits. -/
  | unit {c : Char} {ds : List Char} : ds.length = 4 → Json.hexNumber? ds = some c.toNat →
      Escape ('u' :: ds) [c]
  /-- A character by the two halves of a pair of surrogates. -/
  | pair {ds es : List Char} {hi lo : Nat} : ds.length = 4 → es.length = 4 →
      Json.hexNumber? ds = some hi → Json.hexNumber? es = some lo →
      Text.isHighSurrogate hi = true → Text.isLowSurrogate lo = true →
      Escape ('u' :: ds ++ '\\' :: 'u' :: es) (Json.ofUnits [hi, lo])
  /-- A character by any number of hexadecimal digits in braces. -/
  | code {c : Char} {ds : List Char} : ds ≠ [] → Json.hexNumber? ds = some c.toNat →
      Escape ('u' :: '\x7b' :: ds ++ ['\x7d']) [c]

/-- What may stand between single quotes, and the text that it denotes. -/
inductive LiteralBody : List Char → List Char → Prop
  /-- Nothing denotes the empty text. -/
  | nil : LiteralBody [] []
  /-- Any character but a quote, a backslash and a hard line end stands for itself. -/
  | char {c : Char} {s v : List Char} : c ≠ '\'' → c ≠ '\\' → isHardLineEnd c = false →
      LiteralBody s v → LiteralBody (c :: s) (c :: v)
  /-- A backslash starts an escape. -/
  | escape {e w s v : List Char} : Escape e w → LiteralBody s v →
      LiteralBody ('\\' :: e ++ s) (w ++ v)
  /-- A zero denotes the character zero, unless a digit follows. -/
  | zero {s v : List Char} : (∀ c ∈ s.head?, c.isDigit = false) → LiteralBody s v →
      LiteralBody ('\\' :: '0' :: s) ('\x00' :: v)

/-- A text is one literal in single quotes and nothing else, and denotes `v`. -/
def Denotes (t v : String) : Prop :=
  ∃ s, t.toList = '\'' :: (s ++ ['\'']) ∧ LiteralBody s v.toList

/-- A text is a property name that denotes `v`: `v` itself where it is an identifier, or a
literal. -/
def NamesProperty (t v : String) : Prop := (t = v ∧ isBareName v.toList = true) ∨ Denotes t v

/-! ## The cost of an escape -/

/-- A character that a literal holds only with a backslash before it or as one. -/
def isGuarded (c : Char) : Bool := c == '\'' || c == '\\' || isHardLineEnd c

/-- A character that writing a literal takes no care of. -/
def isNeglected (c : Char) : Bool := c == '\\' || isHardLineEnd c

theorem Escape.length_le (h : Escape e w) : 2 * w.length ≤ e.length + 1 := by
  cases h with
  | letter _ | itself _ | lineEnd _ | lineEnds => simp
  | byte hd _ | unit hd _ => simp [hd]
  | pair hd he _ _ hhi hlo => simp [hd, he, Json.ofUnits, hhi, hlo]
  | code hd _ =>
    have := List.length_pos_iff.mpr hd
    simp only [List.length_cons, List.length_append, List.length_nil]
    omega

/-- **A guarded character costs half a character**, the shortest escapes being two characters for
one. -/
theorem LiteralBody.length_le (h : LiteralBody s v) :
    2 * v.length + s.countP isGuarded ≤ 2 * s.length := by
  induction h with
  | nil => simp
  | @char c s v hq hb hl _ ih =>
    -- A character that stands for itself is not guarded, one that is comes with its backslash.
    have hc : isGuarded c = false := by simp [isGuarded, hq, hb, hl]
    rw [List.countP_cons_of_neg (by simp [hc])]
    simp only [List.length_cons]
    omega
  | @escape e w s v he _ ih =>
    have hlen := he.length_le
    have hle := List.countP_le_length (p := isGuarded) (l := e)
    rw [List.cons_append, List.countP_cons_of_pos (by decide), List.countP_append]
    simp only [List.length_cons, List.length_append]
    omega
  | zero _ _ ih =>
    rw [List.countP_cons_of_pos (by decide), List.countP_cons_of_neg (by decide)]
    simp only [List.length_cons]
    omega

/-- A quote costs one character. -/
theorem length_escapeWith (v : List Char) :
    (Text.escapeWith '\\' '\'' v).length = v.length + v.count '\'' := by
  induction v with
  | nil => rfl
  | cons c v ih =>
    by_cases hc : c = '\''
    · subst hc
      rw [Text.escapeWith_cons_self, List.length_cons, List.length_cons, ih, List.count_cons_self,
        List.length_cons]
      omega
    · rw [Text.escapeWith_cons_of_ne hc, List.length_cons, ih, List.count_cons_of_ne hc,
        List.length_cons]
      omega

/-- The backslash of a quote is guarded like the quote. -/
theorem countP_escapeWith (v : List Char) :
    (Text.escapeWith '\\' '\'' v).countP isGuarded = v.countP isNeglected + 2 * v.count '\'' := by
  induction v with
  | nil => rfl
  | cons c v ih =>
    by_cases hc : c = '\''
    · subst hc
      rw [Text.escapeWith_cons_self, List.countP_cons_of_pos (by decide),
        List.countP_cons_of_pos (by decide), ih, List.countP_cons_of_neg (by decide),
        List.count_cons_self]
      omega
    · have hiff : isGuarded c = isNeglected c := by
        rw [isGuarded, isNeglected, beq_eq_false_iff_ne.mpr hc, Bool.false_or]
      rw [Text.escapeWith_cons_of_ne hc, List.countP_cons, List.countP_cons, ih, hiff,
        List.count_cons_of_ne hc]
      omega

/-! ## Literals as they are written -/

/-- The text comes out of a literal as it went in: it has no backslash and no hard line end. -/
def IsQuotable (s : List Char) : Prop := ∀ c ∈ s, isNeglected c = false

instance (s : List Char) : Decidable (IsQuotable s) :=
  inferInstanceAs (Decidable (∀ c ∈ s, isNeglected c = false))

theorem literalBody_escapeWith (h : IsQuotable v) :
    LiteralBody (Text.escapeWith '\\' '\'' v) v := by
  induction v with
  | nil => exact .nil
  | cons c v ih =>
    have hv := ih fun x hx => h x (List.mem_cons_of_mem _ hx)
    by_cases hc : c = '\''
    · subst hc
      rw [Text.escapeWith_cons_self]
      exact .escape (e := ['\'']) (w := ['\'']) (.itself (by decide)) hv
    · have hn := h c List.mem_cons_self
      simp only [isNeglected, Bool.or_eq_false_iff, beq_eq_false_iff_ne] at hn
      rw [Text.escapeWith_cons_of_ne hc]
      exact .char hc hn.1 hn.2 hv

theorem isQuotable_of_literalBody (h : LiteralBody (Text.escapeWith '\\' '\'' v) v) :
    IsQuotable v := by
  have hle := h.length_le
  rw [countP_escapeWith, length_escapeWith] at hle
  have hzero : v.countP isNeglected = 0 := by omega
  intro c hc
  simpa using List.countP_eq_zero.mp hzero c hc

/-- **A literal denotes its text exactly when nothing in it is neglected.** -/
theorem denotes_quoteLiteral_iff (v : String) :
    Denotes (quoteLiteral v) v ↔ IsQuotable v.toList := by
  have htext : (quoteLiteral v).toList =
      '\'' :: (Text.escapeWith '\\' '\'' v.toList ++ ['\'']) := String.toList_ofList
  constructor
  · rintro ⟨s, hs, hbody⟩
    rw [htext, List.cons.injEq, List.append_left_inj] at hs
    exact isQuotable_of_literalBody (hs.2 ▸ hbody)
  · intro h
    exact ⟨_, htext, literalBody_escapeWith h⟩

/-! ## Property names -/

theorem isQuotable_of_isBareName (h : isBareName s = true) : IsQuotable s := by
  -- No character of a name is one that the scanner neglects.
  have hchar : ∀ c, isNameChar c = true → isNeglected c = false := by
    intro c hc
    rw [isNameChar, Bool.or_eq_true, beq_iff_eq] at hc
    rw [← Bool.not_eq_true]
    intro hn
    simp only [isNeglected, isHardLineEnd, Bool.or_eq_true, beq_iff_eq] at hn
    rcases hn with rfl | rfl | rfl <;> revert hc <;> decide
  cases s with
  | nil => cases h
  | cons c s =>
    rw [isBareName, Bool.and_eq_true, List.all_eq_true] at h
    refine List.forall_mem_cons.mpr ⟨hchar c ?_, fun x hx => hchar x (h.2 x hx)⟩
    have hstart := h.1
    rw [isNameStart, Bool.or_eq_true, Text.isIdentStart_iff] at hstart
    rw [isNameChar, Bool.or_eq_true, Text.isIdentChar_iff]
    rcases hstart with (hc | hc | hc) | hc
    · exact .inl (.inl hc)
    · exact .inl (.inr (.inl hc))
    · exact .inl (.inr (.inr (.inr hc)))
    · exact .inr hc

/-- Only a literal starts with a quote. -/
theorem not_denotes_of_isBareName (h : isBareName s = true) (hn : n.toList = s ++ w) (v : String) :
    ¬ Denotes n v := by
  rintro ⟨r, hr, -⟩
  cases s with
  | nil => cases h
  | cons c s =>
    rw [hn, List.cons_append, List.cons.injEq] at hr
    obtain ⟨rfl, -⟩ := hr
    rw [isBareName, Bool.and_eq_true] at h
    exact absurd h.1 (by decide)

/-- **A property name denotes its text exactly when nothing in it is neglected.** A name with a line
break behind it passes for an identifier and loses the break. -/
theorem namesProperty_propertyName_iff (n : String) :
    NamesProperty (propertyName n) n ↔ IsQuotable n.toList := by
  by_cases hbare : isBareName n.toList = true
  · have hname : propertyName n = n := by simp [propertyName, hbare]
    exact iff_of_true (.inl ⟨hname, hbare⟩) (isQuotable_of_isBareName hbare)
  · rw [NamesProperty, or_iff_right fun h => hbare h.2, propertyName]
    cases hcut : Text.before? ['\n'] n.toList with
    | none => simpa [hbare] using denotes_quoteLiteral_iff n
    | some s =>
      by_cases hs : isBareName s = true
      · have hn := Text.before?_eq_some hcut
        rw [if_pos (by simp [hs])]
        refine iff_of_false (not_denotes_of_isBareName hs hn n) fun h => ?_
        exact absurd (h '\n' (by simp [hn])) (by decide)
      · simpa [hbare, hs] using denotes_quoteLiteral_iff n

/-! ## Everything that is written as a literal -/

/-- A choice that is written bare: a truth value or a number. -/
def isBareChoice (v : String) : Bool :=
  Text.lowerText v == "true" || Text.lowerText v == "false" ||
    (Text.Reader.accepts? Rule.numeral v.toList).isSome

theorem literal_of_not_isBareChoice {v : String} (h : isBareChoice v = false) :
    Rule.literal v = quoteLiteral v := by
  simp only [isBareChoice, Bool.or_eq_false_iff, beq_eq_false_iff_ne] at h
  simp [Rule.literal, h]

/-- **Choices, values of enums and names of properties denote the text they were made of exactly
when it holds no backslash and no line end.** -/
theorem denotes_written_iff (v : String) :
    (Denotes (quoteLiteral v) v ↔ IsQuotable v.toList) ∧
      (NamesProperty (propertyName v) v ↔ IsQuotable v.toList) ∧
      (Denotes (CaseValue.text v).literal v ↔ IsQuotable v.toList) ∧
      (isBareChoice v = true ∨ (Denotes (Rule.literal v) v ↔ IsQuotable v.toList)) := by
  refine ⟨denotes_quoteLiteral_iff v, namesProperty_propertyName_iff v,
    denotes_quoteLiteral_iff v, ?_⟩
  cases hbare : isBareChoice v with
  | true => exact .inl rfl
  | false =>
    rw [literal_of_not_isBareChoice hbare]
    exact .inr (denotes_quoteLiteral_iff v)

/-- A backslash at the end takes the closing quote. -/
theorem not_denotes_of_backslash :
    quoteLiteral "C:\\" = "'C:\\'" ∧ ¬ Denotes (quoteLiteral "C:\\") "C:\\" := by
  refine ⟨by decide, fun h => ?_⟩
  have hkept : isNeglected '\\' = false := (denotes_quoteLiteral_iff _).mp h '\\' (by simp)
  exact absurd hkept (by decide)

end PayloadTypes.TypeText
