/-!
# Blank characters

A character is blank when it is white space or one of the separator
controls. Trimming takes blank characters off both ends of a text; what is
left neither starts nor ends with one.
-/

namespace PayloadTypes.Text

/-- The code point lies in one of the inclusive ranges. -/
def inRanges (ranges : List (Nat × Nat)) (n : Nat) : Bool :=
  ranges.any fun r => r.1 ≤ n && n ≤ r.2

/-- White space and separator controls. -/
def blankRanges : List (Nat × Nat) := [
  (9, 13), (28, 32), (133, 133), (160, 160), (5760, 5760), (8192, 8202), (8232, 8233),
  (8239, 8239), (8287, 8287), (12288, 12288)]

/-- White space, in any script, and the separator controls. -/
def isBlank (c : Char) : Bool := inRanges blankRanges c.toNat

/-- The text without its longest ending in which every character satisfies `p`. -/
def dropEndWhile (p : Char → Bool) (s : List Char) : List Char :=
  (s.reverse.dropWhile p).reverse

/-- The text without the blanks it starts with. -/
def trimStart (s : List Char) : List Char := s.dropWhile isBlank

/-- The text without the blanks it ends with. -/
def trimEnd (s : List Char) : List Char := dropEndWhile isBlank s

/-- The text without the blanks at its ends. -/
def trim (s : List Char) : List Char := trimEnd (trimStart s)

theorem length_dropEndWhile_le (p : Char → Bool) (s : List Char) :
    (dropEndWhile p s).length ≤ s.length := by
  simp only [dropEndWhile, List.length_reverse]
  exact Nat.le_trans (List.dropWhile_suffix _).length_le (by simp)

theorem length_trim_le (s : List Char) : (trim s).length ≤ s.length :=
  Nat.le_trans (length_dropEndWhile_le _ _) (List.dropWhile_suffix _).length_le

end PayloadTypes.Text
