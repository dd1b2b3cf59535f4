import PayloadTypes.Text.Cut
/-!
# Array types

`arrayOf` writes the array of an item type and `itemType?` takes the item
type of a text that is one array. The angle brackets of the item type have
to balance, so that the union of two arrays is not taken for one.
-/

namespace PayloadTypes.TypeText

/-- The array of a type. -/
def arrayOf (item : String) : String := "Array<" ++ item ++ ">"

/-- The angle brackets balance and none closes before it opens. -/
def anglesBalance : (depth : Nat) → List Char → Bool
  | depth, [] => depth == 0
  | depth, c :: s =>
    if c = '<' then anglesBalance (depth + 1) s
    else if c = '>' then
      match depth with
      -- a bracket that closes nothing makes the text no argument list
      | 0 => false
      | d + 1 => anglesBalance d s
    else anglesBalance depth s

/-- The item type of a text that is exactly one array. -/
def itemType? (t : String) : Option String := do
  let inner ← Text.before? [ '>' ] (← Text.after? "Array<".toList (Text.trim t.toList))
  if anglesBalance 0 inner then some (String.ofList inner) else none

end PayloadTypes.TypeText
