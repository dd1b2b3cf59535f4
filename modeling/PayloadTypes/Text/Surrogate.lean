/-!
# Surrogates

Where units have sixteen bits, a character beyond the first plane is made
of two: a surrogate of the upper half and one of the lower half behind it.
A surrogate alone is no character.
-/

namespace PayloadTypes.Text

/-- The first half of a pair of surrogates. -/
def isHighSurrogate (u : Nat) : Bool := 0xD800 ≤ u && u < 0xDC00

/-- The second half of a pair of surrogates. -/
def isLowSurrogate (u : Nat) : Bool := 0xDC00 ≤ u && u < 0xE000

/-- The character of a pair of surrogates. -/
def ofSurrogates (high low : Nat) : Char :=
  Char.ofNat (0x10000 + (high - 0xD800) * 0x400 + (low - 0xDC00))

end PayloadTypes.Text
