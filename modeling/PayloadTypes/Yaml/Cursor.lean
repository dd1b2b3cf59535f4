import PayloadTypes.Json.Token
/-!
# Places in YAML texts

A cursor is a place in a text: what is left, and the index, line and column
there. Every kind of line end counts as one line break before reading
starts, but for the two separators of their own code points, which stay.
-/

namespace PayloadTypes.Yaml

/-- A line break. -/
def isBreak (c : Char) : Bool := c == '\n' || c == '\u2028' || c == '\u2029'

/-- A blank or a tab. -/
def isSpace (c : Char) : Bool := c == ' ' || c == '\t'

/-- A character that may stand in a text. -/
def isAllowed (c : Char) : Bool :=
  let n := c.toNat
  n == 9 || n == 10 || n == 13 || (32 ≤ n && n ≤ 126) || n == 0x85 || (0xA0 ≤ n && n ≤ 0xFFFD) ||
    0x10000 ≤ n

/-- The text with one character for every line end. -/
def unifyBreaks : List Char → List Char
  | [] => []
  | [c] => [if c = '\r' ∨ c.toNat = 0x85 then '\n' else c]
  | c :: d :: s =>
    if c = '\r' ∧ d = '\n' then '\n' :: unifyBreaks s
    else (if c = '\r' ∨ c.toNat = 0x85 then '\n' else c) :: unifyBreaks (d :: s)

/-- A place in a text. -/
structure Cursor where
  /-- What is left of the text. -/
  rest : List Char
  /-- How many characters stand in front of it. -/
  index : Nat
  /-- How many line breaks stand in front of it. -/
  line : Nat
  /-- How many characters stand in front of it on its line. -/
  column : Nat

namespace Cursor

/-- The start of a text. -/
def ofText (s : List Char) : Cursor := ⟨unifyBreaks s, 0, 0, 0⟩

/-- The character at a place. -/
def peek (c : Cursor) : Option Char := c.rest.head?

/-- The character behind the one at a place. -/
def peekNext (c : Cursor) : Option Char := c.rest.tail.head?

/-- The character at a place satisfies `p`; `atEnd` at the end of the text. -/
def is (p : Char → Bool) (atEnd : Bool) (c : Cursor) : Bool := (c.peek.map p).getD atEnd

/-- The place behind one character. -/
def next (c : Cursor) : Cursor :=
  match c.rest with
  | [] => c
  | x :: r =>
    if isBreak x then ⟨r, c.index + 1, c.line + 1, 0⟩
    else ⟨r, c.index + 1, c.line, if x = '\uFEFF' then c.column else c.column + 1⟩

/-- The place behind `n` characters. -/
def advance (c : Cursor) : Nat → Cursor
  | 0 => c
  | n + 1 => c.next.advance n

/-- The characters at a place that satisfy `p`, and the place behind them. -/
def takeWhile (p : Char → Bool) (c : Cursor) : List Char × Cursor :=
  let cs := c.rest.takeWhile p
  (cs, c.advance cs.length)

/-- The end of the text, or a blank or line break, stands behind `n` characters. -/
def blankAfter (c : Cursor) (n : Nat) : Bool :=
  match c.rest.drop n with
  | [] => true
  | x :: _ => isSpace x || isBreak x

/-- A mark of three characters that starts or ends a document. -/
def isMark (c : Cursor) (mark : String) : Bool :=
  Text.startsWith mark.toList c.rest && c.blankAfter 3

/-- The start or the end of a document. -/
def isDocumentMark (c : Cursor) : Bool := c.isMark "---" || c.isMark "..."

end Cursor

end PayloadTypes.Yaml
