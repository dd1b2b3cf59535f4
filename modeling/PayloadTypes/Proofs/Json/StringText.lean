import Mathlib.Algebra.Group.Nat.Defs
import Mathlib.Data.List.Induction
import PayloadTypes.Json.Printer
import PayloadTypes.Json.Token
import PayloadTypes.Proofs.Text.Reader
/-!
# Strings in quotes

A string that is written is read again, whatever it holds (`string_quoted`). A
character comes to one unit, or to two surrogates where it is written in ASCII
and lies beyond the first plane; each unit is written as a text of its own
(`IsUnitText`), and the units of a string give back its characters
(`ofUnits_flatMap_unitsOf`).
-/

namespace PayloadTypes.Json

open Text (hexDigits isHighSurrogate isLowSurrogate ofSurrogates)
open Text.Reader

variable {s rest x : List Char} {u : Nat}

/-! ## Hexadecimal digits -/

theorem hexDigit?_digitChar {d : Nat} (h : d < 16) : hexDigit? d.digitChar = some d := by
  revert d
  decide

theorem hexNumber?_concat (s : List Char) (c : Char) :
    hexNumber? (s ++ [c]) = (hexNumber? s).bind fun n => (hexDigit? c).map (16 * n + ·) := by
  rw [hexNumber?, List.foldlM_append]
  simp only [List.foldlM_cons, List.foldlM_nil, bind_pure]
  rfl

theorem hexNumber?_toDigits (n : Nat) : hexNumber? (Nat.toDigits 16 n) = some n := by
  induction n using Nat.strongRecOn with
  | ind n ih =>
    rw [Nat.toDigits_eq_if (by decide)]
    split
    · next hn =>
      have hdigit := hexDigit?_digitChar hn
      simp [hexNumber?, hdigit]
    · next hn =>
      have hdigit := hexDigit?_digitChar (Nat.mod_lt n (by decide : 0 < 16))
      rw [hexNumber?_concat, ih (n / 16) (by omega), hdigit]
      simp only [Option.bind_some, Option.map_some, Nat.div_add_mod]

theorem hexNumber?_replicate_zero (k : Nat) (s : List Char) :
    hexNumber? (List.replicate k '0' ++ s) = hexNumber? s := by
  induction k with
  | zero => rfl
  | succ k ih => exact ih

/-- **A number is read off its digits.** -/
theorem hexNumber?_hexDigits (width n : Nat) : hexNumber? (hexDigits width n) = some n := by
  rw [hexDigits, hexNumber?_replicate_zero, hexNumber?_toDigits]

theorem length_hexDigits {width n : Nat} (hwidth : 0 < width) (h : n < 16 ^ width) :
    (hexDigits width n).length = width := by
  have hle := (Nat.length_toDigits_le_iff (by decide) hwidth).mpr h
  rw [hexDigits, List.length_append, List.length_replicate]
  omega

theorem isSome_hexDigit? {n : Nat} (h : hexNumber? s = some n) :
    ∀ c ∈ s, (hexDigit? c).isSome = true := by
  induction s using List.reverseRecOn generalizing n with
  | nil => exact fun _ hc => absurd hc List.not_mem_nil
  | append_singleton s d ih =>
    rw [hexNumber?_concat] at h
    obtain ⟨m, hm, h⟩ := Option.bind_eq_some_iff.mp h
    obtain ⟨v, hv, -⟩ := Option.map_eq_some_iff.mp h
    refine List.forall_mem_append.mpr ⟨ih hm, fun c hc => ?_⟩
    rw [List.mem_singleton.mp hc, hv]
    rfl

/-! ## Texts of units -/

/-- The text writes one unit, whatever follows it. -/
def IsUnitText (x : List Char) (u : Nat) : Prop :=
  ∃ c w, x = c :: w ∧ c ≠ '"' ∧ ∀ rest, unit? (x ++ rest) = some (u, w.length)

theorem unitsFrom_length_append (w rest : List Char) :
    unitsFrom w.length (w ++ rest) = unitsFrom 0 rest := by
  induction w with
  | nil => rfl
  | cons c w ih => exact ih

/-- A unit is taken off the front of a string. -/
theorem IsUnitText.unitsFrom_append (h : IsUnitText x u) (rest : List Char) :
    unitsFrom 0 (x ++ rest) = (unitsFrom 0 rest).map fun p => (u :: p.1, p.2) := by
  obtain ⟨c, w, rfl, hc, hunit⟩ := h
  have hread := hunit rest
  rw [List.cons_append] at hread ⊢
  simp only [unitsFrom, hc, if_false, hread, unitsFrom_length_append]

theorem isUnitText_escapeUnit (h : u < 0x10000) : IsUnitText (escapeUnit u) u := by
  have hlength : (hexDigits 4 u).length = 4 := length_hexDigits (by decide) h
  have hnumber := hexNumber?_hexDigits 4 u
  obtain ⟨a, b, c, d, hdigits⟩ := List.length_eq_four.mp hlength
  refine ⟨'\\', 'u' :: hexDigits 4 u, rfl, by decide, fun rest => ?_⟩
  rw [hdigits] at hnumber
  rw [escapeUnit, hdigits]
  change (hexNumber? [a, b, c, d]).map (·, 5) = _
  rw [hnumber]
  rfl

theorem isUnitText_letter {c d : Char} (h : escapeLetter? d = some c) :
    IsUnitText ['\\', d] c.toNat := by
  have hd : d ≠ 'u' := by
    rintro rfl
    cases h
  refine ⟨'\\', [d], rfl, by decide, fun rest => ?_⟩
  rw [List.cons_append, List.cons_append, unit?.eq_def]
  simp [hd, h]

theorem isUnitText_plain {c : Char} (hquote : c ≠ '"') (hbackslash : c ≠ '\\')
    (h : 32 ≤ c.toNat) : IsUnitText [c] c.toNat := by
  refine ⟨c, [], rfl, hquote, fun rest => ?_⟩
  have hnot : ¬ (c = '"' ∨ c.toNat < 32) := by
    rintro (hc | hc)
    · exact hquote hc
    · omega
  simp [unit?, hbackslash, hnot]

/-! ## Units of a character -/

/-- The units of a character: one, or two surrogates. -/
def unitsOf (ascii : Bool) (c : Char) : List Nat :=
  if ascii = true ∧ 0x10000 ≤ c.toNat then
    [0xD800 + (c.toNat - 0x10000) / 0x400, 0xDC00 + (c.toNat - 0x10000) % 0x400]
  else [c.toNat]

/-- No character is a surrogate, and all are below 0x110000. -/
theorem toNat_not_surrogate (c : Char) :
    c.toNat < 0xD800 ∨ 0xE000 ≤ c.toNat ∧ c.toNat < 0x110000 := by
  have hvalid := c.valid
  simp only [UInt32.isValidChar, Nat.isValidChar] at hvalid
  simp only [Char.toNat]
  omega

/-- How a character is written. -/
inductive CharText (ascii : Bool) (c : Char) : List Char → Prop
  /-- By an escape of one letter. -/
  | letter {d : Char} (h : escapeLetter? d = some c) (hplane : c.toNat < 0x10000) :
    CharText ascii c ['\\', d]
  /-- By an escape of four digits. -/
  | unit (hplane : c.toNat < 0x10000) : CharText ascii c (escapeUnit c.toNat)
  /-- As it is. -/
  | plain (hquote : c ≠ '"') (hbackslash : c ≠ '\\') (h : 32 ≤ c.toNat)
    (hascii : ¬ (ascii = true ∧ 0x10000 ≤ c.toNat)) : CharText ascii c [c]
  /-- By two escapes, of a pair of surrogates. -/
  | pair (hascii : ascii = true ∧ 0x10000 ≤ c.toNat) :
    CharText ascii c (escapeUnit (0xD800 + (c.toNat - 0x10000) / 0x400) ++
      escapeUnit (0xDC00 + (c.toNat - 0x10000) % 0x400))

theorem charText_escapeChar (ascii : Bool) (c : Char) :
    CharText ascii c (escapeChar ascii c) := by
  have hcode {d : Char} (h : c.toNat = d.toNat) : c = d := Char.toNat_inj.mp h
  rw [escapeChar]
  -- The cases are those of the writer, in its order.
  by_cases hmark : c = '"' ∨ c = '\\'
  · rw [if_pos hmark]
    rcases hmark with rfl | rfl <;> exact .letter rfl (by decide)
  rw [if_neg hmark]
  by_cases hfeed : c = '\n'
  · rw [if_pos hfeed, hfeed]
    exact .letter rfl (by decide)
  rw [if_neg hfeed]
  by_cases hreturn : c = '\r'
  · rw [if_pos hreturn, hreturn]
    exact .letter rfl (by decide)
  rw [if_neg hreturn]
  by_cases htab : c = '\t'
  · rw [if_pos htab, htab]
    exact .letter rfl (by decide)
  rw [if_neg htab]
  by_cases hback : c.toNat = 8
  · rw [if_pos hback, hcode (d := '\x08') hback]
    exact .letter rfl (by decide)
  rw [if_neg hback]
  by_cases hform : c.toNat = 12
  · rw [if_pos hform, hcode (d := '\x0c') hform]
    exact .letter rfl (by decide)
  rw [if_neg hform]
  by_cases hcontrol : c.toNat < 32
  · rw [if_pos hcontrol]
    exact .unit (by omega)
  rw [if_neg hcontrol]
  by_cases hplain : c.toNat < 127 ∨ (!ascii) = true
  · rw [if_pos hplain]
    refine .plain (fun h => hmark (.inl h)) (fun h => hmark (.inr h)) (by omega) ?_
    rintro ⟨rfl, hplane⟩
    rcases hplain with h | h
    · omega
    · cases h
  rw [if_neg hplain]
  by_cases hplane : c.toNat < 0x10000
  · rw [if_pos hplane]
    exact .unit hplane
  · rw [if_neg hplane]
    refine .pair ⟨?_, by omega⟩
    cases ascii with
    | true => rfl
    | false => exact absurd (.inr rfl) hplain

theorem unitsOf_of_lt (ascii : Bool) {c : Char} (h : c.toNat < 0x10000) :
    unitsOf ascii c = [c.toNat] := by
  rw [unitsOf, if_neg (by omega)]

/-- **The units of a character are read off its text.** -/
theorem unitsFrom_escapeChar (ascii : Bool) (c : Char) (rest : List Char) :
    unitsFrom 0 (escapeChar ascii c ++ rest) =
      (unitsFrom 0 rest).map fun p => (unitsOf ascii c ++ p.1, p.2) := by
  have hone {x : List Char} (hx : IsUnitText x c.toNat) (hunits : unitsOf ascii c = [c.toNat]) :
      unitsFrom 0 (x ++ rest) = (unitsFrom 0 rest).map fun p => (unitsOf ascii c ++ p.1, p.2) := by
    rw [hx.unitsFrom_append, hunits]
    rfl
  have htext := charText_escapeChar ascii c
  generalize escapeChar ascii c = x at htext ⊢
  cases htext with
  | letter h hplane => exact hone (isUnitText_letter h) (unitsOf_of_lt ascii hplane)
  | unit hplane => exact hone (isUnitText_escapeUnit hplane) (unitsOf_of_lt ascii hplane)
  | plain hquote hbackslash h hascii =>
    exact hone (isUnitText_plain hquote hbackslash h) (if_neg hascii)
  | pair hascii =>
    have hc := toNat_not_surrogate c
    have hhigh : IsUnitText _ (0xD800 + (c.toNat - 0x10000) / 0x400) :=
      isUnitText_escapeUnit (by omega)
    have hlow : IsUnitText _ (0xDC00 + (c.toNat - 0x10000) % 0x400) :=
      isUnitText_escapeUnit (by omega)
    rw [List.append_assoc, hhigh.unitsFrom_append, hlow.unitsFrom_append, unitsOf, if_pos hascii,
      Option.map_map]
    rfl

/-- **A character is what its units come to.** -/
theorem ofUnits_unitsOf_append (ascii : Bool) (c : Char) (us : List Nat) :
    ofUnits (unitsOf ascii c ++ us) = c :: ofUnits us := by
  have hc := toNat_not_surrogate c
  rw [unitsOf]
  split
  · next hpair =>
    have hhigh : isHighSurrogate (0xD800 + (c.toNat - 0x10000) / 0x400) = true := by
      simp only [isHighSurrogate, Bool.and_eq_true, decide_eq_true_eq]
      omega
    have hlow : isLowSurrogate (0xDC00 + (c.toNat - 0x10000) % 0x400) = true := by
      simp only [isLowSurrogate, Bool.and_eq_true, decide_eq_true_eq]
      omega
    have hnumber : 0x10000 + (0xD800 + (c.toNat - 0x10000) / 0x400 - 0xD800) * 0x400 +
        (0xDC00 + (c.toNat - 0x10000) % 0x400 - 0xDC00) = c.toNat := by
      omega
    simp only [List.cons_append, List.nil_append, ofUnits, hhigh, hlow, ofSurrogates, hnumber,
      Bool.and_self, if_true, Char.ofNat_toNat]
  · -- one unit, which is no half of a pair whatever follows it
    have hhigh : isHighSurrogate c.toNat = false := by
      simp only [isHighSurrogate, Bool.and_eq_false_iff, decide_eq_false_iff_not]
      omega
    have hlow : isLowSurrogate c.toNat = false := by
      simp only [isLowSurrogate, Bool.and_eq_false_iff, decide_eq_false_iff_not]
      omega
    cases us with
    | nil => simp [ofUnits, ofUnit, hhigh, hlow]
    | cons u us => simp [ofUnits, ofUnit, hhigh, hlow]

/-! ## Strings -/

theorem unitsFrom_flatMap_escapeChar (ascii : Bool) (s rest : List Char) :
    unitsFrom 0 (s.flatMap (escapeChar ascii) ++ '"' :: rest) =
      some (s.flatMap (unitsOf ascii), rest) := by
  induction s with
  | nil => rfl
  | cons c s ih =>
    rw [List.flatMap_cons, List.append_assoc, unitsFrom_escapeChar, ih]
    rfl

theorem ofUnits_flatMap_unitsOf (ascii : Bool) (s : List Char) :
    ofUnits (s.flatMap (unitsOf ascii)) = s := by
  induction s with
  | nil => rfl
  | cons c s ih => rw [List.flatMap_cons, ofUnits_unitsOf_append, ih]

/-- **A string is read again as it was written**, whatever it holds and whatever follows it. -/
theorem string_quoted (ascii : Bool) (s rest : List Char) :
    string (quoted ascii s ++ rest) = some (String.ofList s, rest) := by
  have hunits := unitsFrom_flatMap_escapeChar ascii s rest
  rw [quoted, List.append_assoc, List.cons_append, string, bind_eq (char_cons _ _)]
  rw [List.singleton_append, bind_eq hunits, ofUnits_flatMap_unitsOf]
  rfl

theorem carriageReturn_not_mem_escapeUnit (u : Nat) : '\r' ∉ escapeUnit u := by
  intro hmem
  have hdigit := isSome_hexDigit? (hexNumber?_hexDigits 4 u) '\r' (by simpa [escapeUnit] using hmem)
  cases hdigit

theorem carriageReturn_not_mem_escapeChar (ascii : Bool) (c : Char) :
    '\r' ∉ escapeChar ascii c := by
  have htext := charText_escapeChar ascii c
  generalize escapeChar ascii c = x at htext ⊢
  cases htext with
  | letter h =>
    intro hmem
    obtain rfl := List.mem_singleton.mp (List.mem_of_ne_of_mem (by decide) hmem)
    cases h
  | unit => exact carriageReturn_not_mem_escapeUnit _
  | plain _ _ h =>
    intro hmem
    obtain rfl := List.mem_singleton.mp hmem
    exact absurd h (by decide)
  | pair =>
    exact List.not_mem_append (carriageReturn_not_mem_escapeUnit _)
      (carriageReturn_not_mem_escapeUnit _)

/-- No carriage return stands in a string that is written. -/
theorem carriageReturn_not_mem_quoted (ascii : Bool) (s : List Char) : '\r' ∉ quoted ascii s := by
  have hchars : '\r' ∉ s.flatMap (escapeChar ascii) := by
    intro hmem
    obtain ⟨c, -, hc⟩ := List.mem_flatMap.mp hmem
    exact carriageReturn_not_mem_escapeChar ascii c hc
  simp [quoted, hchars]

end PayloadTypes.Json
