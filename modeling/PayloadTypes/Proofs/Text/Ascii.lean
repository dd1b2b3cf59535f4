import PayloadTypes.Text.Case
import PayloadTypes.Text.Word
/-!
# ASCII characters

Letters and digits by their code points, and what follows for the characters
of identifiers and for lower case: ASCII characters are put in lower case one
by one.
-/

namespace PayloadTypes.Text

variable {c : Char} {s : List Char} {cased : Bool}

theorem isUpper_iff : c.isUpper = true ↔ 65 ≤ c.toNat ∧ c.toNat ≤ 90 := decide_eq_true_iff

theorem isLower_iff : c.isLower = true ↔ 97 ≤ c.toNat ∧ c.toNat ≤ 122 := by
  change (decide _ && decide _) = true ↔ _
  rw [Bool.and_eq_true, decide_eq_true_iff, decide_eq_true_iff]
  rfl

theorem isDigit_iff : c.isDigit = true ↔ 48 ≤ c.toNat ∧ c.toNat ≤ 57 := by
  change (decide _ && decide _) = true ↔ _
  rw [Bool.and_eq_true, decide_eq_true_iff, decide_eq_true_iff]
  rfl

theorem isAlpha_iff : c.isAlpha = true ↔ c.isUpper = true ∨ c.isLower = true := by
  change (c.isUpper || c.isLower) = true ↔ _
  rw [Bool.or_eq_true]

theorem isIdentStart_iff :
    isIdentStart c = true ↔ c.isUpper = true ∨ c.isLower = true ∨ c = '_' := by
  rw [isIdentStart, Bool.or_eq_true, isAlpha_iff, beq_iff_eq, or_assoc]

theorem isIdentChar_iff :
    isIdentChar c = true ↔ c.isUpper = true ∨ c.isLower = true ∨ c.isDigit = true ∨ c = '_' := by
  change (c.isAlpha || c.isDigit || c == '_') = true ↔ _
  rw [Bool.or_eq_true, Bool.or_eq_true, isAlpha_iff, beq_iff_eq, or_assoc, or_assoc]

theorem isIdentChar_of_isIdentStart (h : isIdentStart c = true) : isIdentChar c = true := by
  rw [isIdentStart_iff] at h
  rw [isIdentChar_iff]
  rcases h with h | h | h
  · exact .inl h
  · exact .inr (.inl h)
  · exact .inr (.inr (.inr h))

/-- The code points of identifiers lie above those of the ASCII blanks. -/
theorem toNat_of_isIdentChar (h : isIdentChar c = true) : 48 ≤ c.toNat ∧ c.toNat ≤ 122 := by
  rw [isIdentChar_iff, isUpper_iff, isLower_iff, isDigit_iff] at h
  rcases h with h | h | h | rfl
  · omega
  · omega
  · omega
  · decide

theorem isWord_of_isIdentChar (h : isIdentChar c = true) : isWord c = true := by
  have := toNat_of_isIdentChar h
  rw [isWord, if_pos (by omega), h]

theorem isBlank_eq_false (h : 33 ≤ c.toNat ∧ c.toNat ≤ 132) : isBlank c = false := by
  rw [← Bool.not_eq_true]
  simp only [isBlank, inRanges, blankRanges, List.any_cons, List.any_nil, Bool.or_eq_true,
    Bool.and_eq_true, decide_eq_true_eq, Bool.false_eq_true, or_false]
  omega

/-- What is in lower case is left as it is. -/
theorem toLower_eq_self (h : c.isUpper = false) : c.toLower = c := dif_neg (of_decide_eq_false h)

theorem isUpper_eq_false (h : c.isLower = true ∨ c.isDigit = true ∨ c = '_') :
    c.isUpper = false := by
  rw [← Bool.not_eq_true, isUpper_iff]
  rw [isLower_iff, isDigit_iff] at h
  rcases h with h | h | rfl
  · omega
  · omega
  · decide

/-! ## Lower case -/

theorem lowerAfter_cons (h : c.toNat < 128) (cased : Bool) (s : List Char) :
    lowerAfter cased (c :: s) =
      c.toLower :: lowerAfter (if isCaseIgnorable c then cased else isCased c) s := by
  have hsigma : c.toNat ≠ 0x3A3 := by omega
  rw [lowerAfter, if_neg hsigma, lowerChar, if_pos h, List.singleton_append]

theorem lowerAfter_eq_map (h : ∀ c ∈ s, c.toNat < 128) (cased : Bool) :
    lowerAfter cased s = s.map Char.toLower := by
  induction s generalizing cased with
  | nil => rfl
  | cons c s ih =>
    rw [lowerAfter_cons (h c List.mem_cons_self), ih fun d hd => h d (List.mem_cons_of_mem _ hd),
      List.map_cons]

/-- **ASCII texts are put in lower case character by character.** -/
theorem lower_eq_map (h : ∀ c ∈ s, c.toNat < 128) : lower s = s.map Char.toLower :=
  lowerAfter_eq_map h false

/-- The letters around a character matter for the forms of others only. -/
theorem mem_lowerAfter (hc : c.toNat < 128) (h : c ∈ s) : c.toLower ∈ lowerAfter cased s := by
  induction s generalizing cased with
  | nil => cases h
  | cons d s ih =>
    rcases List.mem_cons.mp h with rfl | h
    · rw [lowerAfter_cons hc]
      exact List.mem_cons_self
    · rw [lowerAfter]
      exact List.mem_append_right _ (ih h)

/-- No ASCII character is lost in lower case. -/
theorem mem_lower (hc : c.toNat < 128) (h : c ∈ s) : c.toLower ∈ lower s := mem_lowerAfter hc h

end PayloadTypes.Text
