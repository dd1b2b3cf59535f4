import PayloadTypes.Data.OrderedMap
import PayloadTypes.Source.Enclosed
import PayloadTypes.Text.Reader
/-!
# Returned array literals

A function returns an array literal when a bracket opens behind the first
`return` in its text. The entries of the literal are its parts with an
arrow; a quoted key loses its quotes.
-/

namespace PayloadTypes.Source

open Text (Reader)
open Text.Reader

/-- The word `return`. -/
def returnWord : Reader Unit := do
  text "return"
  wordEnd

/-- The trimmed content of the array literal that follows the first `return`. -/
def returnedLiteral? (source : List Char) : Option (List Char) := do
  let found ← find? (wordStart returnWord) source
  let (_, rest) ← Text.cut? '[' found.after
  let (inner, _) ← enclosed? '[' rest
  return Text.trim inner

/-- What stands between the quotes `q` of a key that is not empty. -/
def betweenQuotes? (q : Char) (key : List Char) : Option (List Char) := do
  let inner ← Text.before? [q] (← Text.after? [q] key)
  if inner.isEmpty then none else some inner

/-- A key without its quotes. -/
def bareKey (key : List Char) : List Char :=
  ((betweenQuotes? '\'' key).orElse fun _ => betweenQuotes? '"' key).getD key

/-- The end of an expression that does not count. -/
def isTrailer (c : Char) : Bool := c == ',' || c == '\n' || c == '\r' || c == ' '

/-- The key and the expression of a part with an arrow. -/
def entry? (part : List Char) : Option (String × String) :=
  (Text.cutText? ['=', '>'] (Text.trim part)).map fun p =>
    (String.ofList (bareKey (Text.trim p.1)),
      String.ofList (Text.dropEndWhile isTrailer (Text.trim p.2)))

/-- The entries of the content of an array literal. -/
def entries (content : List Char) : OrderedMap String :=
  OrderedMap.ofList ((splitCommas content).filterMap entry?)

end PayloadTypes.Source
