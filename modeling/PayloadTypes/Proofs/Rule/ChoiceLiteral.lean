import PayloadTypes.Proofs.Text.Reader
import PayloadTypes.Proofs.TypeText.LiteralType
import PayloadTypes.Rule.Choice
/-!
# Choices as literal types

The value of a choice is written bare if it spells a number, and numbers are taken
in a wider sense than the output language has: with a plus sign, zeros in front,
digits of any script and a line break behind. So a number is a literal type exactly
when it has none of these, and any other value exactly when its backslashes start
escapes (`isLiteralType_literal_iff`).
-/

namespace PayloadTypes.Rule

open Text (isDigit)
open Text.Reader
open TypeText (Decimal Exponent IsLiteralType IsNumberType IsPlain IsQuoted IsWritable isMark
  isSign)

variable {r s t w : List Char} {e : Exponent} {n : Decimal} {plus : Bool} {v : String}

/-! ## What a number is -/

/-- The text is a number of digits of any script, alone or with a line break behind it. -/
def SpellsNumber (s : List Char) : Prop :=
  ∃ n : Decimal, n.IsNumber isDigit ∧ (s = n.text ∨ s = n.text ++ ['\n'])

/-- The exponent of a number. -/
def exponent : Text.Reader (List Char) := do
  let _ ← one isMark
  let _ ← maybe (one isSign)
  many1 isDigit

/-- What stands behind the digits of a number. -/
def exponentAndEnd : Text.Reader Unit := do
  let _ ← maybe exponent
  lastLineEnd

/-- What stands behind the whole part of a number. -/
def behindWhole : List Char → Text.Reader Unit
  | [] => do
    char '.'
    let _ ← many1 isDigit
    exponentAndEnd
  | _ => do
    let _ ← maybe (do
      char '.'
      many isDigit)
    exponentAndEnd

theorem numeral_eq :
    numeral = (do
      let _ ← maybe (one isSign)
      let whole ← many isDigit
      behindWhole whole) := rfl

theorem of_lastLineEnd (h : lastLineEnd s = some ((), t)) : s = [] ∨ s = ['\n'] := by
  rw [lastLineEnd.eq_def] at h
  split at h
  · exact .inl rfl
  · exact .inr rfl
  · cases h

theorem of_exponent (h : exponent s = some (w, t)) :
    ∃ e : Exponent, e.IsExponent isDigit ∧ s = e.text ++ t := by
  obtain ⟨mark, s₁, hmark, hrest⟩ := bind_eq_some_iff.mp h
  obtain ⟨sign, s₂, hread, hdigits⟩ := bind_eq_some_iff.mp hrest
  obtain ⟨hsign, rfl⟩ := of_maybe_one hread
  obtain ⟨hne, hall⟩ := of_many1 hdigits
  refine ⟨⟨mark, sign, w⟩, ⟨of_one hmark, hsign, hall, hne⟩, ?_⟩
  rw [eq_cons_of_one hmark, eq_append_of_many1 hdigits]
  simp [Exponent.text]

/-- The exponent is there or not, and behind it the end of the line. -/
theorem of_exponentAndEnd (h : exponentAndEnd s = some ((), t)) :
    ∃ o : Option Exponent, (∀ e ∈ o, e.IsExponent isDigit) ∧
      ∃ r, (r = [] ∨ r = ['\n']) ∧ s = (o.map Exponent.text).getD [] ++ r := by
  obtain ⟨w, r, hexponent, hend⟩ := bind_eq_some_iff.mp h
  have hr := of_lastLineEnd hend
  cases w with
  | none => exact ⟨none, by simp, r, hr, eq_of_maybe_eq_none hexponent⟩
  | some w =>
    obtain ⟨e, he, hs⟩ := of_exponent (of_maybe_eq_some hexponent)
    exact ⟨some e, by simpa using he, r, hr, hs⟩

/-- The fraction is there or not, and it has digits if the whole part has none. -/
theorem of_behindWhole (h : behindWhole w s = some ((), t)) :
    ∃ o : Option (List Char), (∀ f ∈ o, ∀ c ∈ f, isDigit c = true) ∧
      (w = [] → ∃ f ∈ o, f ≠ []) ∧
      ∃ r, s = (o.map ('.' :: ·)).getD [] ++ r ∧ exponentAndEnd r = some ((), t) := by
  rw [behindWhole.eq_def] at h
  -- Without digits in front the point and digits behind it must stand there.
  split at h
  · obtain ⟨_, s₁, hpoint, hrest⟩ := bind_eq_some_iff.mp h
    obtain ⟨f, r, hf, hr⟩ := bind_eq_some_iff.mp hrest
    obtain ⟨hne, hall⟩ := of_many1 hf
    refine ⟨some f, by simpa using hall, fun _ => ⟨f, rfl, hne⟩, r, ?_, hr⟩
    rw [eq_cons_of_char hpoint, eq_append_of_many1 hf]
    rfl
  · next hw =>
    obtain ⟨o, r, ho, hr⟩ := bind_eq_some_iff.mp h
    cases o with
    | none => exact ⟨none, by simp, fun h => (hw h).elim, r, eq_of_maybe_eq_none ho, hr⟩
    | some f =>
      obtain ⟨_, s₁, hpoint, hf⟩ := bind_eq_some_iff.mp (of_maybe_eq_some ho)
      obtain ⟨hall, rfl⟩ := of_many hf
      refine ⟨some f, by simpa using hall, fun h => (hw h).elim, r, ?_, hr⟩
      rw [eq_cons_of_char hpoint]
      rfl

theorem spellsNumber_of_numeral (h : numeral s = some ((), t)) : SpellsNumber s := by
  rw [numeral_eq] at h
  obtain ⟨sign, s₁, hsignRead, hrest⟩ := bind_eq_some_iff.mp h
  obtain ⟨whole, s₂, hwholeRead, hbehind⟩ := bind_eq_some_iff.mp hrest
  obtain ⟨hsign, hs⟩ := of_maybe_one hsignRead
  obtain ⟨hwhole, rfl⟩ := of_many hwholeRead
  obtain ⟨fraction, hfraction, hdigits, s₃, rfl, hend⟩ := of_behindWhole hbehind
  obtain ⟨exponent, hexponent, r, hr, rfl⟩ := of_exponentAndEnd hend
  refine ⟨⟨sign, whole, fraction, exponent⟩, ⟨hsign, hwhole, hfraction, hexponent, hdigits⟩, ?_⟩
  rcases hr with rfl | rfl
  · exact .inl (by simp [hs, Decimal.text, Decimal.tail])
  · exact .inr (by simp [hs, Decimal.text, Decimal.tail])

/-! ## Every number is read -/

theorem isSign_eq_false_of_isDigit {c : Char} (h : isDigit c = true) : isSign c = false := by
  rw [← Bool.not_eq_true, TypeText.isSign_iff]
  rintro (rfl | rfl) <;> exact absurd h (by decide)

theorem exponent_append (he : e.IsExponent isDigit) (ht : ∀ c ∈ t.head?, isDigit c = false) :
    exponent (e.text ++ t) = some (e.digits, t) := by
  obtain ⟨c, ds, hds⟩ := List.exists_cons_of_ne_nil he.ne_nil
  have hsign : ∀ d ∈ (e.digits ++ t).head?, isSign d = false := by
    rw [hds]
    rintro d ⟨⟩
    exact isSign_eq_false_of_isDigit (he.digits c (by simp [hds]))
  rw [exponent, Exponent.text, List.cons_append, List.append_assoc, bind_eq (one_cons he.mark),
    bind_eq (maybe_one_append he.sign hsign)]
  exact many1_append he.ne_nil he.digits ht

/-- What stands behind the fraction starts with the letter of the exponent or is over. -/
theorem head?_exponentAndEnd {o : Option Exponent} (ho : ∀ e ∈ o, e.IsExponent isDigit)
    (hr : r = [] ∨ r = ['\n']) :
    ∀ c ∈ ((o.map Exponent.text).getD [] ++ r).head?, isDigit c = false ∧ c ≠ '.' := by
  cases o with
  | some e =>
    refine forall_mem_head?_cons ?_ _
    rcases TypeText.isMark_iff.mp (ho e rfl).mark with hc | hc <;> rw [hc] <;> decide
  | none =>
    rcases hr with rfl | rfl
    · exact fun _ hc => nomatch hc
    · exact forall_mem_head?_cons (by decide) []

theorem exponentAndEnd_append {o : Option Exponent} (ho : ∀ e ∈ o, e.IsExponent isDigit)
    (hr : r = [] ∨ r = ['\n']) :
    exponentAndEnd ((o.map Exponent.text).getD [] ++ r) = some ((), r) := by
  have hend : lastLineEnd r = some ((), r) := by rcases hr with rfl | rfl <;> rfl
  cases o with
  | none =>
    have hnone : maybe exponent r = some (none, r) := by rcases hr with rfl | rfl <;> rfl
    exact (bind_eq hnone).trans hend
  | some e =>
    have hdigit := head?_exponentAndEnd (o := none) (fun _ he => nomatch he) hr
    have hread := exponent_append (ho e rfl) fun c hc => (hdigit c hc).1
    exact (bind_eq (maybe_eq_some hread)).trans hend

theorem behindWhole_append (hn : n.IsNumber isDigit) (hr : r = [] ∨ r = ['\n']) :
    behindWhole n.whole (n.tail ++ r) = some ((), r) := by
  have hend := exponentAndEnd_append hn.exponent hr
  have hhead := head?_exponentAndEnd hn.exponent hr
  rw [Decimal.tail, List.append_assoc]
  -- What ends the digits of the fraction is the exponent, the end or a line feed.
  cases hf : n.fraction with
  | some f =>
    have hall := hn.fraction f hf
    cases hw : n.whole with
    | nil =>
      obtain ⟨f', hf', hne⟩ := hn.digits hw
      obtain rfl : f = f' := Option.some.inj (hf.symm.trans hf')
      have hread := many1_append hne hall fun c hc => (hhead c hc).1
      exact (bind_eq (char_cons '.' _)).trans ((bind_eq hread).trans hend)
    | cons c w =>
      have hread := many_append hall fun c hc => (hhead c hc).1
      exact (bind_eq (maybe_eq_some ((bind_eq (char_cons '.' _)).trans hread))).trans hend
  | none =>
    have hne : n.whole ≠ [] := by
      intro hw
      obtain ⟨f, hf', -⟩ := hn.digits hw
      exact absurd (hf.symm.trans hf') (by simp)
    have hpoint : char '.' ((n.exponent.map Exponent.text).getD [] ++ r) = none := by
      cases hs : (n.exponent.map Exponent.text).getD [] ++ r with
      | nil => rfl
      | cons d t => exact char_eq_none (hhead d (by rw [hs]; rfl)).2 t
    obtain ⟨c, w, hw⟩ := List.exists_cons_of_ne_nil hne
    rw [hw]
    exact (bind_eq (maybe_eq_none (bind_eq_none hpoint))).trans hend

/-- Behind the digits of the whole part stands no other. -/
theorem head?_tail_append (hn : n.IsNumber isDigit) (hr : r = [] ∨ r = ['\n']) :
    ∀ c ∈ (n.tail ++ r).head?, isDigit c = false := by
  rw [Decimal.tail, List.append_assoc]
  cases n.fraction with
  | some f => exact forall_mem_head?_cons (by decide) _
  | none => exact fun c hc => (head?_exponentAndEnd hn.exponent hr c hc).1

theorem numeral_append (hn : n.IsNumber isDigit) (hr : r = [] ∨ r = ['\n']) :
    numeral (n.text ++ r) = some ((), r) := by
  have hsign : ∀ c ∈ (n.whole ++ (n.tail ++ r)).head?, isSign c = false := by
    obtain ⟨c, t, hs, hc⟩ := hn.exists_unsigned
    rw [← List.append_assoc, hs]
    refine forall_mem_head?_cons ?_ _
    rcases hc with hc | rfl
    · exact isSign_eq_false_of_isDigit hc
    · decide
  have hwhole := many_append hn.whole (head?_tail_append hn hr)
  rw [numeral_eq, Decimal.text, List.append_assoc, List.append_assoc,
    bind_eq (maybe_one_append hn.sign hsign), bind_eq hwhole]
  exact behindWhole_append hn hr

/-- **A value is written bare as a number exactly when it spells one.** -/
theorem isSome_numeral_iff (s : List Char) :
    (accepts? numeral s).isSome = true ↔ SpellsNumber s := by
  rw [accepts?, Option.isSome_map]
  constructor
  · intro h
    obtain ⟨⟨⟨⟩, t⟩, hread⟩ := Option.isSome_iff_exists.mp h
    exact spellsNumber_of_numeral hread
  · rintro ⟨n, hn, rfl | rfl⟩
    · rw [← List.append_nil n.text, numeral_append hn (.inl rfl)]
      rfl
    · rw [numeral_append hn (.inr rfl)]
      rfl

/-- **What spells a number is one of the output language exactly when its characters are plain.** -/
theorem isNumberType_iff : IsNumberType plus s ↔ SpellsNumber s ∧ IsPlain plus s := by
  constructor
  · rintro ⟨n, hn, rfl⟩
    have hplain := hn.isPlain
    refine ⟨⟨n, hn.toIsNumber.congr fun c hc hd => ?_, .inl rfl⟩, hplain⟩
    exact (Text.isDigit_eq_of_ascii (hplain.ascii c hc)).trans hd
  · rintro ⟨⟨n, hn, rfl | rfl⟩, hplain⟩
    · exact ⟨n, (Decimal.isLiteral_iff hn).mpr hplain, rfl⟩
    · exact absurd (List.mem_append_right _ (List.mem_singleton_self _)) hplain.oneLine

/-! ## Which values become literal types -/

/-- The value is a truth value, in letters of either case. -/
def SpellsTruth (v : String) : Prop := Text.lowerText v = "true" ∨ Text.lowerText v = "false"

theorem isLiteralType_of_spellsTruth (h : SpellsTruth v) : IsLiteralType plus (literal v) := by
  rw [SpellsTruth] at h
  rw [literal, if_pos h]
  exact .inr (h.imp_right .inl)

theorem literal_of_spellsNumber (ht : ¬ SpellsTruth v) (hn : SpellsNumber v.toList) :
    literal v = v := by
  rw [SpellsTruth] at ht
  rw [literal, if_neg ht, if_pos ((isSome_numeral_iff _).mpr hn)]

theorem literal_of_not_spellsNumber (ht : ¬ SpellsTruth v) (hn : ¬ SpellsNumber v.toList) :
    literal v = TypeText.quoteLiteral v := by
  rw [SpellsTruth] at ht
  rw [literal, if_neg ht, if_neg (mt (isSome_numeral_iff _).mp hn)]

/-- No quote stands in a number. -/
theorem not_spellsNumber_of_isQuoted (h : IsQuoted s) : ¬ SpellsNumber s := by
  rintro ⟨n, hn, hs⟩
  obtain ⟨q, r, hq, rfl, -⟩ := h
  have hmem : q ∈ n.text ∨ q = '\n' := by
    have hhead : q ∈ q :: (r ++ [q]) := List.mem_cons_self
    rcases hs with hs | hs
    · exact .inl (hs ▸ hhead)
    · rwa [hs, List.mem_append, List.mem_singleton] at hhead
  rcases hq with rfl | rfl
  · exact absurd (hmem.imp_left hn.of_mem_text) (by decide)
  · exact absurd (hmem.imp_left hn.of_mem_text) (by decide)

/-- **A value becomes a literal type exactly when** it is a truth value, a number of plain
characters or, where it is neither, a text whose backslashes start escapes. -/
theorem isLiteralType_literal_iff (plus : Bool) (v : String) :
    IsLiteralType plus (literal v) ↔
      SpellsTruth v ∨ (SpellsNumber v.toList ∧ IsPlain plus v.toList) ∨
        (¬ SpellsTruth v ∧ ¬ SpellsNumber v.toList ∧ IsWritable v.toList) := by
  -- The three readings exclude each other, so each is settled under the ones before it.
  by_cases htruth : SpellsTruth v
  · exact iff_of_true (isLiteralType_of_spellsTruth htruth) (.inl htruth)
  by_cases hnumber : SpellsNumber v.toList
  · have hquoted : ¬ IsQuoted v.toList := fun h => not_spellsNumber_of_isQuoted h hnumber
    have htrue : v ≠ "true" := by
      rintro rfl
      exact htruth (.inl (by decide))
    have hfalse : v ≠ "false" := by
      rintro rfl
      exact htruth (.inr (by decide))
    simp only [literal_of_spellsNumber htruth hnumber, IsLiteralType, hquoted, htrue, hfalse,
      isNumberType_iff, htruth, hnumber, not_true_eq_false, true_and, false_and, and_false,
      false_or, or_false]
  · simp only [literal_of_not_spellsNumber htruth hnumber,
      TypeText.isLiteralType_quoteLiteral_iff, htruth, hnumber, not_false_eq_true, true_and,
      false_and, false_or]

/-- A zero in front of a number is left there. -/
theorem not_isLiteralType_literal_leadingZero :
    literal "01234" = "01234" ∧ ¬ IsLiteralType true (literal "01234") := by
  have hliteral : literal "01234" = "01234" := by decide
  refine ⟨hliteral, ?_⟩
  rw [hliteral]
  rintro (⟨q, r, hq, hs, -⟩ | h | h | h)
  · obtain rfl : '0' = q := (List.cons.inj hs).1
    exact absurd hq (by decide)
  · exact absurd h (by decide)
  · exact absurd h (by decide)
  · exact (isNumberType_iff.mp h).2.zeros ⟨[], '1', _, .inl rfl, rfl, rfl⟩

end PayloadTypes.Rule
