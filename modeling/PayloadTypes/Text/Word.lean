import PayloadTypes.Text.Blank
import PayloadTypes.Text.WordTable
/-!
# Words and identifiers

A word is a longest run of letters, digits and underscores, in any script.
An identifier is ASCII: a letter or underscore, then letters, digits and
underscores.
-/

namespace PayloadTypes.Text

/-- An ASCII letter, digit or underscore. -/
def isIdentChar (c : Char) : Bool := c.isAlphanum || c == '_'

/-- An ASCII letter or underscore. -/
def isIdentStart (c : Char) : Bool := c.isAlpha || c == '_'

/-- A letter, a digit or other numeral, or the underscore. -/
def isWord (c : Char) : Bool :=
  if c.toNat < 128 then isIdentChar c else inRanges wordRanges c.toNat

/-- The longest runs of characters that satisfy `p`, in order. -/
def runs (p : Char → Bool) : List Char → List (List Char)
  | [] => []
  | [c] => if p c then [[c]] else []
  | c :: d :: s =>
    if p c then
      match runs p (d :: s) with
      | [] => [[c]]
      -- the run behind goes on with this character only if it starts right there
      | r :: rs => if p d then (c :: r) :: rs else [c] :: r :: rs
    else runs p (d :: s)

/-- The words of a text, in order. -/
def words (s : List Char) : List (List Char) := runs isWord s

end PayloadTypes.Text
