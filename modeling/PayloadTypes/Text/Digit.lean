import PayloadTypes.Text.Blank
/-!
# Decimal digits

Every script with decimal digits lists its ten digits in order, so a digit
is known by the zero of its block. Numbers are read in any of these
scripts, mixed ones included.
-/

namespace PayloadTypes.Text

/-- The zeros of the blocks of ten decimal digits. -/
def digitZeros : List Nat := [
  48, 1632, 1776, 1984, 2406, 2534, 2662, 2790, 2918, 3046, 3174, 3302, 3430, 3558, 3664,
  3792, 3872, 4160, 4240, 6112, 6160, 6470, 6608, 6784, 6800, 6992, 7088, 7232, 7248,
  42528, 43216, 43264, 43472, 43504, 43600, 44016, 65296, 66720, 68912, 69734, 69872,
  69942, 70096, 70384, 70736, 70864, 71248, 71360, 71472, 71904, 72016, 72784, 73040,
  73120, 92768, 92864, 93008, 120782, 120792, 120802, 120812, 120822, 123200, 123632,
  125264, 130032]

/-- The value of a decimal digit of any script. -/
def digitValue? (c : Char) : Option Nat :=
  (digitZeros.find? fun z => z ≤ c.toNat && c.toNat < z + 10).map fun z => c.toNat - z

/-- A decimal digit of any script. -/
def isDigit (c : Char) : Bool := (digitValue? c).isSome

/-- The number that the digits of a text spell, other characters left out. -/
def digitsToNat (s : List Char) : Nat :=
  (s.filterMap digitValue?).foldl (fun n d => 10 * n + d) 0

/-- The decimal digits of a number. -/
def natDigits (n : Nat) : List Char := Nat.toDigits 10 n

/-- An integer in decimal, with a minus sign in front of a negative one. -/
def intDigits (i : Int) : List Char :=
  match i with
  | .ofNat n => natDigits n
  | .negSucc n => '-' :: natDigits (n + 1)

end PayloadTypes.Text
