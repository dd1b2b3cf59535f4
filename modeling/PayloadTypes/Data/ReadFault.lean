import PayloadTypes.Text.Digit
/-!
# Why a text has no value

A data text has no value where it is not in its format. Some texts are in
the format and still have none: an integer may be written with more digits
than are read, a day may be one that the calendar does not have, and an
escape may name a code point of no character.
-/

namespace PayloadTypes

/-- Why a text has no value. -/
inductive ReadFault where
  /-- It is not in its format. -/
  | malformed
  /-- An integer has more decimal digits than are read or written. -/
  | longInteger
  /-- The base of an integer stands without digits. -/
  | noDigits
  /-- A number in base sixty has more places than there are powers of sixty. -/
  | hugePower
  /-- The calendar has no such day, or the clock no such time. -/
  | noMoment
  /-- An escape names a code point of no character. -/
  | noCharacter
  /-- An escape names a number that is too large for a code point. -/
  | hugeCode
deriving DecidableEq, Repr

/-- How many decimal digits an integer has at most where it is read or written. -/
def longestInteger : Nat := 4300

/-- The number that decimal digits spell; leading zeros count among the digits. -/
def readDigits (s : List Char) : Except ReadFault Nat :=
  if longestInteger < s.length then .error .longInteger else .ok (Text.digitsToNat s)

/-- An integer has few enough digits to be written; a minus sign is none. -/
def isWritableInteger (i : Int) : Bool := (Text.natDigits i.natAbs).length ≤ longestInteger

/-- What was found, or else the fault of a text that is not in its format. -/
def ReadFault.demand {α : Type} : Option α → Except ReadFault α
  | some a => .ok a
  | none => .error .malformed

/-- The sentence that tells a fault. -/
def ReadFault.message : ReadFault → String
  | .malformed => "A text is not in its format."
  | .longInteger => "An integer has more digits than are read or written."
  | .noDigits => "The base of an integer stands without digits."
  | .hugePower => "A number in base sixty has too many places."
  | .noMoment => "A day is not on the calendar, or a time not on the clock."
  | .noCharacter => "An escape names no character."
  | .hugeCode => "An escape names a number that is too large."

end PayloadTypes
