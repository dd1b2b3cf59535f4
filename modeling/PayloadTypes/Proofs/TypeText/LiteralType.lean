import PayloadTypes.Proofs.Json.StringText
import PayloadTypes.Proofs.Text.Numeral
import PayloadTypes.Proofs.TypeText.Literal
/-!
# Literal types

The output language takes as a type a text in quotes, a truth value and a number
(`IsLiteralType`). A text in quotes is accepted whatever it denotes, so fewer
texts break a literal than come out of it changed: those that `IsWritable` leaves
out, whose backslashes start no escape or take a quote, and those with a line end
(`isQuoted_quoteLiteral_iff`). A number is written in ASCII digits, its whole part
without a zero in front and itself without a plus sign (`Decimal.IsLiteral`), and
that can be told by its characters (`Decimal.isLiteral_iff`).
-/

namespace PayloadTypes.TypeText

variable {e s v : List Char} {q : Char}

/-! ## Texts in quotes -/

/-- What may stand behind a backslash; a zero may as well, but no digit behind it. -/
inductive IsEscape : List Char → Prop
  /-- Any character but a digit and the letters that digits follow. -/
  | char {c : Char} : c.isDigit = false → c ≠ 'x' → c ≠ 'u' → IsEscape [c]
  /-- A line end of two characters. -/
  | lineEnds : IsEscape ['\r', '\n']
  /-- Two hexadecimal digits. -/
  | byte {ds : List Char} : ds.length = 2 → (Json.hexNumber? ds).isSome → IsEscape ('x' :: ds)
  /-- Four hexadecimal digits, which may denote half a character. -/
  | unit {ds : List Char} : ds.length = 4 → (Json.hexNumber? ds).isSome → IsEscape ('u' :: ds)
  /-- The hexadecimal digits of a code point, in braces. -/
  | code {ds : List Char} {n : ℕ} : ds ≠ [] → Json.hexNumber? ds = some n → n ≤ 0x10FFFF →
      IsEscape ('u' :: '\x7b' :: ds ++ ['\x7d'])

/-- What may stand between two quotes `q`. -/
inductive IsLiteralText (q : Char) : List Char → Prop
  /-- Nothing. -/
  | nil : IsLiteralText q []
  /-- Any character but the quote, a backslash and a hard line end. -/
  | char {c : Char} {s : List Char} : c ≠ q → c ≠ '\\' → isHardLineEnd c = false →
      IsLiteralText q s → IsLiteralText q (c :: s)
  /-- A backslash with an escape. -/
  | escape {e s : List Char} : IsEscape e → IsLiteralText q s → IsLiteralText q ('\\' :: e ++ s)
  /-- A backslash with a zero. -/
  | zero {s : List Char} : (∀ c ∈ s.head?, c.isDigit = false) → IsLiteralText q s →
      IsLiteralText q ('\\' :: '0' :: s)

/-- The text is one literal in quotes of either kind, and nothing else. -/
def IsQuoted (t : List Char) : Prop :=
  ∃ q s, (q = '\'' ∨ q = '"') ∧ t = q :: (s ++ [q]) ∧ IsLiteralText q s

/-- Each backslash of the text starts an escape other than a quote, and no hard line end stands
outside of these. -/
inductive IsWritable : List Char → Prop
  /-- Nothing. -/
  | nil : IsWritable []
  /-- Any character but a backslash and a hard line end. -/
  | char {c : Char} {v : List Char} : c ≠ '\\' → isHardLineEnd c = false → IsWritable v →
      IsWritable (c :: v)
  /-- A backslash with an escape other than a quote. -/
  | escape {e v : List Char} : IsEscape e → '\'' ∉ e → IsWritable v → IsWritable ('\\' :: e ++ v)
  /-- A backslash with a zero. -/
  | zero {v : List Char} : (∀ c ∈ v.head?, c.isDigit = false) → IsWritable v →
      IsWritable ('\\' :: '0' :: v)

theorem not_mem_of_hexNumber? {c : Char} {ds : List Char} (hc : Json.hexDigit? c = none)
    (h : (Json.hexNumber? ds).isSome = true) : c ∉ ds := by
  obtain ⟨n, hn⟩ := Option.isSome_iff_exists.mp h
  intro hmem
  have hdigit := Json.isSome_hexDigit? hn c hmem
  rw [hc] at hdigit
  cases hdigit

/-- An escape is one character, or more without a quote and a backslash. -/
theorem IsEscape.singleton_or (h : IsEscape e) :
    (∃ c, e = [c]) ∨ (e ≠ [] ∧ '\'' ∉ e ∧ '\\' ∉ e) := by
  cases h with
  | char _ _ _ => exact .inl ⟨_, rfl⟩
  | lineEnds => exact .inr (by decide)
  | byte _ hds | unit _ hds =>
    have hquote := not_mem_of_hexNumber? (c := '\'') (by decide) hds
    have hslash := not_mem_of_hexNumber? (c := '\\') (by decide) hds
    exact .inr (by simp [hquote, hslash])
  | code _ hds _ =>
    have hsome := Option.isSome_iff_exists.mpr ⟨_, hds⟩
    have hquote := not_mem_of_hexNumber? (c := '\'') (by decide) hsome
    have hslash := not_mem_of_hexNumber? (c := '\\') (by decide) hsome
    exact .inr (by simp [hquote, hslash])

/-- An escape that starts with a quote is the quote. -/
theorem IsEscape.of_quote (h : IsEscape e) {r : List Char} (he : '\'' :: r = e ++ s) :
    e = ['\''] ∧ r = s := by
  rcases h.singleton_or with ⟨c, rfl⟩ | ⟨hne, hquote, -⟩
  · rw [List.singleton_append, List.cons.injEq] at he
    exact ⟨by rw [he.1], he.2⟩
  · obtain ⟨c, e, rfl⟩ := List.exists_cons_of_ne_nil hne
    rw [List.cons_append, List.cons.injEq] at he
    exact absurd (he.1 ▸ List.mem_cons_self) hquote

/-- An escape with a backslash in it is the backslash. -/
theorem IsEscape.of_mem (h : IsEscape e) (hb : '\\' ∈ e) : e = ['\\'] := by
  rcases h.singleton_or with ⟨c, rfl⟩ | ⟨-, -, hslash⟩
  · rw [List.mem_singleton.mp hb]
  · exact absurd hb hslash

/-- The first character is the same, but for a quote, and its backslash is no digit either. -/
theorem head?_escapeWith_isDigit (v : List Char) :
    (∀ c ∈ (Text.escapeWith '\\' '\'' v).head?, c.isDigit = false) ↔
      ∀ c ∈ v.head?, c.isDigit = false := by
  cases v with
  | nil => rfl
  | cons c v =>
    by_cases hc : c = '\''
    · rw [hc, Text.escapeWith_cons_self]
      simp only [List.head?_cons, Option.mem_some_iff, forall_eq']
      decide
    · rw [Text.escapeWith_cons_of_ne hc]
      rfl

theorem not_isLiteralText_cons_self (hq : q ≠ '\\') : ¬ IsLiteralText q (q :: s) := by
  intro h
  cases h with
  | char hne _ _ _ => exact hne rfl
  | escape _ _ => exact hq rfl
  | zero _ _ => exact hq rfl

theorem isLiteralText_escapeWith (h : IsWritable v) :
    IsLiteralText '\'' (Text.escapeWith '\\' '\'' v) := by
  induction h with
  | nil => exact .nil
  | @char c v hb hl _ ih =>
    by_cases hc : c = '\''
    · rw [hc, Text.escapeWith_cons_self]
      exact .escape (e := ['\'']) (.char (by decide) (by decide) (by decide)) ih
    · rw [Text.escapeWith_cons_of_ne hc]
      exact .char hc hb hl ih
  | @escape e v he hq _ ih =>
    rw [List.cons_append, Text.escapeWith_cons_of_ne (by decide),
      Text.escapeWith_append_of_not_mem hq]
    exact .escape he ih
  | @zero v hv _ ih =>
    rw [Text.escapeWith_cons_of_ne (by decide), Text.escapeWith_cons_of_ne (by decide)]
    exact .zero ((head?_escapeWith_isDigit v).mpr hv) ih

/-- The pieces between the quotes are taken back to pieces of the text: an escaped quote to the
quote alone, an escaped backslash to two, since one in front of a quote would leave that bare. -/
theorem isWritable_of_isLiteralText (h : IsLiteralText '\'' (Text.escapeWith '\\' '\'' v)) :
    IsWritable v := by
  generalize hs : Text.escapeWith '\\' '\'' v = s at h
  induction h generalizing v with
  | nil =>
    obtain rfl : v = [] := by
      cases v with
      | nil => rfl
      | cons c v => exact absurd (hs ▸ Text.mem_escapeWith List.mem_cons_self) List.not_mem_nil
    exact .nil
  | @char c s hq hb hl _ ih =>
    -- A character other than a backslash came from itself.
    obtain ⟨v, rfl, -, hv⟩ :=
      Text.exists_of_escapeWith_eq_append (w := [c]) hs (by simpa using hb.symm)
    exact .char hb hl (ih hv)
  | @escape e s he hrest ih =>
    rcases Text.of_escapeWith_eq_cons_self hs with ⟨v, rfl, hv⟩ | ⟨v, rfl, hv⟩
    · obtain ⟨-, rfl⟩ := he.of_quote hv.symm
      exact .char (by decide) (by decide) (ih rfl)
    -- An escape that holds a backslash is the backslash alone, so a second one follows it.
    · by_cases hb : '\\' ∈ e
      · obtain rfl := he.of_mem hb
        rcases Text.of_escapeWith_eq_cons_self hv.symm with ⟨v, rfl, rfl⟩ | ⟨v, rfl, rfl⟩
        · exact absurd hrest (not_isLiteralText_cons_self (by decide))
        · exact .escape he (by decide) (ih rfl)
      · obtain ⟨v, rfl, hq, hv⟩ := Text.exists_of_escapeWith_eq_append hv.symm hb
        exact .escape he hq (ih hv)
  | @zero s hzero _ ih =>
    rcases Text.of_escapeWith_eq_cons_self hs with ⟨v, rfl, hv⟩ | ⟨v, rfl, hv⟩
    · exact absurd (List.cons.inj hv).1 (by decide)
    · obtain ⟨v, rfl, -, rfl⟩ :=
        Text.exists_of_escapeWith_eq_append (w := ['0']) hv.symm (by decide)
      exact .zero ((head?_escapeWith_isDigit v).mp hzero) (ih rfl)

theorem toList_quoteLiteral (v : String) :
    (quoteLiteral v).toList = '\'' :: (Text.escapeWith '\\' '\'' v.toList ++ ['\'']) :=
  String.toList_ofList

/-- **A text makes an accepted literal exactly when it is writable.** -/
theorem isQuoted_quoteLiteral_iff (v : String) :
    IsQuoted (quoteLiteral v).toList ↔ IsWritable v.toList := by
  rw [toList_quoteLiteral]
  constructor
  · rintro ⟨q, s, -, hs, hlit⟩
    obtain ⟨rfl, hs⟩ := List.cons.inj hs
    rw [List.append_left_inj] at hs
    exact isWritable_of_isLiteralText (hs ▸ hlit)
  · intro h
    exact ⟨_, _, .inl rfl, rfl, isLiteralText_escapeWith h⟩

/-! ## Numbers -/

/-- The exponent of a number as it is written. -/
structure Exponent where
  /-- The letter in front. -/
  mark : Char
  /-- The sign, if there is one. -/
  sign : Option Char
  /-- The digits. -/
  digits : List Char

/-- A decimal number as it is written. -/
structure Decimal where
  /-- The sign, if there is one. -/
  sign : Option Char
  /-- The digits in front of the point. -/
  whole : List Char
  /-- The digits behind the point, if there is one. -/
  fraction : Option (List Char)
  /-- The exponent, if there is one. -/
  exponent : Option Exponent

/-- The text of an exponent. -/
def Exponent.text (e : Exponent) : List Char := e.mark :: (e.sign.toList ++ e.digits)

/-- The text of a fraction and an exponent. -/
def Decimal.tail (n : Decimal) : List Char :=
  (n.fraction.map ('.' :: ·)).getD [] ++ (n.exponent.map Exponent.text).getD []

/-- The text of a number. -/
def Decimal.text (n : Decimal) : List Char := n.sign.toList ++ (n.whole ++ n.tail)

/-- A plus or minus sign. -/
def isSign (c : Char) : Bool := c == '+' || c == '-'

/-- A letter in front of an exponent. -/
def isMark (c : Char) : Bool := c == 'e' || c == 'E'

theorem isSign_iff {c : Char} : isSign c = true ↔ c = '+' ∨ c = '-' := by simp [isSign]

theorem isMark_iff {c : Char} : isMark c = true ↔ c = 'e' ∨ c = 'E' := by simp [isMark]

/-- An exponent has a letter in front and digits behind, between them a sign or nothing. -/
structure Exponent.IsExponent (digit : Char → Bool) (e : Exponent) : Prop where
  mark : isMark e.mark = true
  sign : ∀ c ∈ e.sign, isSign c = true
  digits : ∀ c ∈ e.digits, digit c = true
  ne_nil : e.digits ≠ []

/-- The characters of the parts are right, and there are digits on one side of the point. -/
structure Decimal.IsNumber (digit : Char → Bool) (n : Decimal) : Prop where
  sign : ∀ c ∈ n.sign, isSign c = true
  whole : ∀ c ∈ n.whole, digit c = true
  fraction : ∀ w ∈ n.fraction, ∀ c ∈ w, digit c = true
  exponent : ∀ e ∈ n.exponent, e.IsExponent digit
  digits : n.whole = [] → ∃ w ∈ n.fraction, w ≠ []

/-- A number of the output language: its digits are ASCII digits, it has no plus sign, and no zero
stands in front of its whole part. Its exponent may have a plus sign if `plus` says so, which the
language itself allows. -/
structure Decimal.IsLiteral (plus : Bool) (n : Decimal) : Prop
    extends n.IsNumber Char.isDigit where
  unsigned : '+' ∉ n.sign
  zeros : n.whole.head? = some '0' → n.whole = ['0']
  exponentPlus : plus = false → ∀ e ∈ n.exponent, '+' ∉ e.sign

/-- The text is a number of the output language. -/
def IsNumberType (plus : Bool) (t : List Char) : Prop :=
  ∃ n : Decimal, n.IsLiteral plus ∧ t = n.text

/-- The text is a literal type: a text in quotes, a truth value or a number. -/
def IsLiteralType (plus : Bool) (t : String) : Prop :=
  IsQuoted t.toList ∨ t = "true" ∨ t = "false" ∨ IsNumberType plus t.toList

/-- A zero stands in front of the digits of a number. -/
def HasIdleZero (s : List Char) : Prop :=
  ∃ sign c r, (sign = [] ∨ sign = ['-']) ∧ s = sign ++ '0' :: c :: r ∧ c.isDigit = true

/-- What the output language asks of the characters of a number. -/
structure IsPlain (plus : Bool) (s : List Char) : Prop where
  ascii : ∀ c ∈ s, c.toNat < 128
  oneLine : '\n' ∉ s
  unsigned : '+' ∉ s.head?
  zeros : ¬ HasIdleZero s
  exponentPlus : plus = false → '+' ∉ s

namespace Decimal

variable {digit : Char → Bool} {n : Decimal} {plus : Bool} {c : Char}

theorem mem_tail_iff : c ∈ n.tail ↔ (∃ w ∈ n.fraction, c = '.' ∨ c ∈ w) ∨
    ∃ e ∈ n.exponent, c = e.mark ∨ c ∈ e.sign ∨ c ∈ e.digits := by
  cases hf : n.fraction <;> cases he : n.exponent <;>
    simp [tail, Exponent.text, hf, he, or_assoc]

theorem mem_text_iff : c ∈ n.text ↔ c ∈ n.sign ∨ c ∈ n.whole ∨ c ∈ n.tail := by
  simp [text]

theorem mem_text_of_mem_tail (h : c ∈ n.tail) : c ∈ n.text := mem_text_iff.mpr (.inr (.inr h))

namespace IsNumber

/-- A number is made of digits and few other characters. -/
theorem of_mem_text (h : n.IsNumber digit) (hc : c ∈ n.text) :
    digit c = true ∨ c = '.' ∨ isSign c = true ∨ isMark c = true := by
  rcases mem_text_iff.mp hc with hc | hc | hc
  · exact .inr (.inr (.inl (h.sign c hc)))
  · exact .inl (h.whole c hc)
  · rcases mem_tail_iff.mp hc with ⟨w, hw, hc | hc⟩ | ⟨e, he, hc | hc | hc⟩
    · exact .inr (.inl hc)
    · exact .inl (h.fraction w hw c hc)
    · exact .inr (.inr (.inr (hc ▸ (h.exponent e he).mark)))
    · exact .inr (.inr (.inl ((h.exponent e he).sign c hc)))
    · exact .inl ((h.exponent e he).digits c hc)

/-- Only the characters of the text matter. -/
theorem congr {digit' : Char → Bool} (h : n.IsNumber digit)
    (hd : ∀ c ∈ n.text, digit c = true → digit' c = true) : n.IsNumber digit' where
  sign := h.sign
  whole := fun c hc => hd c (mem_text_iff.mpr (.inr (.inl hc))) (h.whole c hc)
  fraction := fun w hw c hc =>
    hd c (mem_text_of_mem_tail (mem_tail_iff.mpr (.inl ⟨w, hw, .inr hc⟩))) (h.fraction w hw c hc)
  exponent := fun e he =>
    { h.exponent e he with
      digits := fun c hc =>
        hd c (mem_text_of_mem_tail (mem_tail_iff.mpr (.inr ⟨e, he, .inr (.inr hc)⟩)))
          ((h.exponent e he).digits c hc) }
  digits := h.digits

/-- Behind the whole part stands the point or the letter of the exponent. -/
theorem head?_tail (h : n.IsNumber digit) : ∀ c ∈ n.tail.head?, c = '.' ∨ isMark c = true := by
  intro c hc
  cases hf : n.fraction with
  | some w =>
    rw [tail, hf] at hc
    exact .inl (Option.some.inj hc).symm
  | none =>
    cases he : n.exponent with
    | some e =>
      rw [tail, hf, he] at hc
      exact .inr (Option.some.inj hc ▸ (h.exponent e he).mark)
    | none => simp [tail, hf, he] at hc

/-- Behind the sign stands a digit or the point. -/
theorem exists_unsigned (h : n.IsNumber digit) :
    ∃ c r, n.whole ++ n.tail = c :: r ∧ (digit c = true ∨ c = '.') := by
  cases hw : n.whole with
  | cons c w => exact ⟨c, w ++ n.tail, rfl, .inl (h.whole c (hw ▸ List.mem_cons_self))⟩
  | nil =>
    obtain ⟨w, hf, -⟩ := h.digits hw
    refine ⟨'.', w ++ (n.exponent.map Exponent.text).getD [], ?_, .inr rfl⟩
    rw [tail, Option.mem_def.mp hf]
    rfl

end IsNumber

/-- A minus sign is the only sign but the plus sign. -/
theorem sign_toList (h : n.IsNumber digit) (hplus : '+' ∉ n.sign) :
    n.sign.toList = [] ∨ n.sign.toList = ['-'] := by
  cases hs : n.sign with
  | none => exact .inl rfl
  | some c =>
    rcases isSign_iff.mp (h.sign c hs) with rfl | rfl
    · exact absurd hs hplus
    · exact .inr rfl

namespace IsLiteral

/-- A whole part that starts with a zero is over behind it. -/
theorem isDigit_eq_false_of_zero (h : n.IsLiteral plus) {r : List Char}
    (hbody : n.whole ++ n.tail = '0' :: c :: r) : c.isDigit = false := by
  cases hw : n.whole with
  | nil =>
    rw [hw, List.nil_append] at hbody
    exact absurd (h.head?_tail '0' (by rw [hbody]; rfl)) (by decide)
  | cons d w =>
    rw [hw, List.cons_append, List.cons.injEq] at hbody
    have hzero := h.zeros (by rw [hw, hbody.1]; rfl)
    obtain rfl : w = [] := (List.cons.inj (hw.symm.trans hzero)).2
    rcases h.head?_tail c (by rw [← List.nil_append n.tail, hbody.2]; rfl) with rfl | hmark
    · decide
    · rcases isMark_iff.mp hmark with rfl | rfl <;> decide

/-- No zero stands in front of digits: behind the sign stands a digit or the point. -/
theorem not_hasIdleZero (h : n.IsLiteral plus) : ¬ HasIdleZero n.text := by
  rintro ⟨sign, c, r, hsign, htext, hc⟩
  obtain ⟨d, b, hbody, hd⟩ := h.exists_unsigned
  have hminus : d ≠ '-' := by
    rintro rfl
    exact absurd hd (by decide)
  have hrest : d :: b = '0' :: c :: r := by
    rw [text, hbody] at htext
    rcases sign_toList h.toIsNumber h.unsigned with hs | hs <;> rcases hsign with rfl | rfl <;>
      rw [hs] at htext
    · exact htext
    · exact absurd (List.cons.inj htext).1 hminus
    · exact absurd (List.cons.inj htext).1 (by decide)
    · exact (List.cons.inj htext).2
  exact absurd hc (by simp [h.isDigit_eq_false_of_zero (hbody.trans hrest)])

theorem not_mem_plus (h : n.IsLiteral plus) (hplus : plus = false) : '+' ∉ n.text := by
  intro hmem
  rcases mem_text_iff.mp hmem with hc | hc | hc
  · exact h.unsigned hc
  · exact absurd (h.whole _ hc) (by decide)
  · rcases mem_tail_iff.mp hc with ⟨w, hw, hc | hc⟩ | ⟨e, he, hc | hc | hc⟩
    · exact absurd hc (by decide)
    · exact absurd (h.fraction w hw _ hc) (by decide)
    · exact absurd (hc ▸ (h.exponent e he).mark) (by decide)
    · exact h.exponentPlus hplus e he hc
    · exact absurd ((h.exponent e he).digits _ hc) (by decide)

theorem isPlain (h : n.IsLiteral plus) : IsPlain plus n.text where
  ascii := by
    intro c hc
    rcases h.of_mem_text hc with hd | rfl | hs | hm
    · rw [Text.isDigit_iff] at hd
      omega
    · decide
    · rcases isSign_iff.mp hs with rfl | rfl <;> decide
    · rcases isMark_iff.mp hm with rfl | rfl <;> decide
  oneLine := fun hc => absurd (h.of_mem_text hc) (by decide)
  unsigned := by
    obtain ⟨d, b, hbody, hd⟩ := h.exists_unsigned
    rw [text, hbody]
    rcases sign_toList h.toIsNumber h.unsigned with hs | hs <;> rw [hs]
    · rintro ⟨⟩
      exact absurd hd (by decide)
    · simp
  zeros := h.not_hasIdleZero
  exponentPlus := h.not_mem_plus

end IsLiteral

/-- **A number of any digits is one of the output language exactly when its characters are
plain.** -/
theorem isLiteral_iff (h : n.IsNumber Text.isDigit) : n.IsLiteral plus ↔ IsPlain plus n.text := by
  refine ⟨IsLiteral.isPlain, fun hp => ?_⟩
  have hdigit := h.congr fun c hc hd => Text.isDigit_eq_of_ascii (hp.ascii c hc) ▸ hd
  have hunsigned : '+' ∉ n.sign := by
    intro hs
    exact hp.unsigned (by rw [text, Option.mem_def.mp hs]; rfl)
  refine ⟨hdigit, hunsigned, fun hhead => ?_, fun hplus e he hs => ?_⟩
  · obtain ⟨w, hw⟩ := List.head?_eq_some_iff.mp hhead
    cases w with
    | nil => exact hw
    | cons c w =>
      have hc := hdigit.whole c (by rw [hw]; simp)
      refine absurd ⟨n.sign.toList, c, w ++ n.tail, ?_, by rw [text, hw]; rfl, hc⟩ hp.zeros
      exact sign_toList hdigit hunsigned
  · have hmem : '+' ∈ n.tail := mem_tail_iff.mpr (.inr ⟨e, he, .inr (.inl hs)⟩)
    exact hp.exponentPlus hplus (mem_text_of_mem_tail hmem)

end Decimal

/-! ## Texts in quotes among the literal types -/

theorem head?_quoteLiteral (v : String) : (quoteLiteral v).toList.head? = some '\'' := by
  rw [toList_quoteLiteral, List.head?_cons]

/-- **A text in quotes is a literal type exactly when its text is writable**: it is none of the
others. -/
theorem isLiteralType_quoteLiteral_iff (plus : Bool) (v : String) :
    IsLiteralType plus (quoteLiteral v) ↔ IsWritable v.toList := by
  rw [← isQuoted_quoteLiteral_iff]
  refine ⟨?_, .inl⟩
  rintro (h | h | h | ⟨n, hn, h⟩)
  · exact h
  · exact absurd (h ▸ head?_quoteLiteral v) (by decide)
  · exact absurd (h ▸ head?_quoteLiteral v) (by decide)
  · rw [toList_quoteLiteral] at h
    exact absurd (hn.of_mem_text (h ▸ List.mem_cons_self)) (by decide)

end PayloadTypes.TypeText
