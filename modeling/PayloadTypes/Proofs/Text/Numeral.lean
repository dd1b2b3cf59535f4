import Mathlib.Algebra.Group.Nat.Defs
import Mathlib.Data.List.Induction
import PayloadTypes.Data.ReadFault
import PayloadTypes.Proofs.Text.Ascii
/-!
# Decimal numerals

A number is read off the digits that it is written with (`readDigits_natDigits`),
if they are not too many, and what is read off some digits has no more digits than
these (`length_natDigits_le_of_readDigits`): leading zeros are lost.
-/

namespace PayloadTypes.Text

variable {c : Char} {n : Nat} {s : List Char}

theorem digitValue?_of_isDigit (h : c.isDigit = true) : digitValue? c = some (c.toNat - 48) := by
  rw [isDigit_iff] at h
  have hblock : (decide (48 ≤ c.toNat) && decide (c.toNat < 48 + 10)) = true := by
    rw [Bool.and_eq_true, decide_eq_true_eq, decide_eq_true_eq]
    omega
  have hzero : (digitZeros.find? fun z => z ≤ c.toNat && c.toNat < z + 10) = some 48 :=
    List.find?_cons_of_pos hblock
  rw [digitValue?, hzero, Option.map_some]

/-- The digits of other scripts are not ASCII characters. -/
theorem isDigit_eq_of_ascii (h : c.toNat < 128) : isDigit c = c.isDigit := by
  cases hc : c.isDigit with
  | true => rw [isDigit, digitValue?_of_isDigit hc, Option.isSome_some]
  | false =>
    have hzeros : ∀ z ∈ digitZeros, z = 48 ∨ 128 ≤ z := by decide
    have hnot : ¬ (48 ≤ c.toNat ∧ c.toNat ≤ 57) := by
      rw [← isDigit_iff, hc]
      exact Bool.false_ne_true
    rw [isDigit, digitValue?, List.find?_eq_none.mpr, Option.map_none, Option.isSome_none]
    intro z hz hblock
    rw [Bool.and_eq_true, decide_eq_true_eq, decide_eq_true_eq] at hblock
    have := hzeros z hz
    omega

theorem isDigit_of_mem_natDigits (h : c ∈ natDigits n) : c.isDigit = true :=
  Nat.isDigit_of_mem_toDigits (by decide) (by decide) h

theorem natDigits_ne_nil (n : Nat) : natDigits n ≠ [] := Nat.toDigits_ne_nil

theorem isDigit_or_of_mem_intDigits {i : Int} (h : c ∈ intDigits i) :
    c.isDigit = true ∨ c = '-' := by
  cases i with
  | ofNat n => exact .inl (isDigit_of_mem_natDigits h)
  | negSucc n => exact (List.mem_cons.mp h).symm.imp_left isDigit_of_mem_natDigits

theorem toNat_of_mem_intDigits {i : Int} (h : c ∈ intDigits i) :
    45 ≤ c.toNat ∧ c.toNat ≤ 57 := by
  rcases isDigit_or_of_mem_intDigits h with h | rfl
  · rw [isDigit_iff] at h
    omega
  · decide

theorem intDigits_ne_nil (i : Int) : intDigits i ≠ [] := by
  cases i with
  | ofNat n => exact natDigits_ne_nil n
  | negSucc n => exact List.cons_ne_nil _ _

theorem digitsToNat_eq_ofDigitChars (h : ∀ c ∈ s, c.isDigit = true) :
    digitsToNat s = Nat.ofDigitChars 10 s 0 := by
  have hfold : ∀ (s : List Char) (n : Nat), (∀ c ∈ s, c.isDigit = true) →
      (s.filterMap digitValue?).foldl (fun n d => 10 * n + d) n = Nat.ofDigitChars 10 s n := by
    intro s
    induction s with
    | nil => exact fun _ _ => rfl
    | cons c s ih =>
      intro n h
      rw [List.filterMap_cons, digitValue?_of_isDigit (h c List.mem_cons_self),
        Nat.ofDigitChars_cons]
      exact ih _ fun d hd => h d (List.mem_cons_of_mem _ hd)
  exact hfold s 0 h

/-- **A number is the one that its digits spell.** -/
theorem digitsToNat_natDigits (n : Nat) : digitsToNat (natDigits n) = n := by
  rw [digitsToNat_eq_ofDigitChars fun _ => isDigit_of_mem_natDigits]
  exact Nat.ofDigitChars_toDigits (by decide) (by decide)

theorem digitValue?_lt {d : Nat} (h : digitValue? c = some d) : d < 10 := by
  obtain ⟨z, hz, rfl⟩ := Option.map_eq_some_iff.mp h
  have hblock := List.find?_some hz
  rw [Bool.and_eq_true, decide_eq_true_eq, decide_eq_true_eq] at hblock
  omega

theorem digitsToNat_concat (s : List Char) (c : Char) :
    digitsToNat (s ++ [c]) =
      match digitValue? c with
      | some d => 10 * digitsToNat s + d
      | none => digitsToNat s := by
  rw [digitsToNat, List.filterMap_append, List.foldl_append, ← digitsToNat]
  cases hc : digitValue? c <;> simp [hc]

theorem digitsToNat_lt (s : List Char) : digitsToNat s < 10 ^ s.length := by
  induction s using List.reverseRecOn with
  | nil => decide
  | append_singleton s c ih =>
    rw [digitsToNat_concat, List.length_append, List.length_singleton, Nat.pow_succ]
    cases hc : digitValue? c with
    | none => exact Nat.lt_of_lt_of_le ih (Nat.le_mul_of_pos_right _ (by decide))
    | some d =>
      have hd := digitValue?_lt hc
      change 10 * digitsToNat s + d < _
      omega

end PayloadTypes.Text

namespace PayloadTypes

open Text (natDigits)

variable {n : Nat} {s : List Char}

/-- **A number is read off its digits**, if they are not too many. -/
theorem readDigits_natDigits (h : (natDigits n).length ≤ longestInteger) :
    readDigits (natDigits n) = .ok n := by
  rw [readDigits, if_neg (Nat.not_lt.mpr h), Text.digitsToNat_natDigits]

/-- No number that is read has more digits than are read. -/
theorem length_natDigits_le_of_readDigits (h : readDigits s = .ok n) :
    (natDigits n).length ≤ longestInteger := by
  rw [readDigits] at h
  split at h
  · cases h
  · next hlength =>
    obtain rfl : Text.digitsToNat s = n := Except.ok.inj h
    refine (Nat.length_toDigits_le_iff (by decide) (by decide)).mpr ?_
    exact Nat.lt_of_lt_of_le (Text.digitsToNat_lt s)
      (Nat.pow_le_pow_right (by decide) (Nat.not_lt.mp hlength))

end PayloadTypes
