import PayloadTypes.Yaml.ScalarText
/-!
# Tokens of YAML texts

A YAML text is cut into tokens. The structure that indentation gives is
made explicit: a token opens a block where it starts and one closes it
where the indentation ends. A scalar or bracket becomes a key only when a
colon follows on its line; the token that says so is put in front of it
then. Where the text cannot be cut further, the last token is a fault; what
may still have become a key is not reached in front of it.
-/

namespace PayloadTypes.Yaml

/-- What a YAML text is made of. -/
inductive Token where
  /-- The start of a document. -/
  | documentStart
  /-- The end of a document. -/
  | documentEnd
  /-- A list in brackets opens. -/
  | openList
  /-- A list in brackets closes. -/
  | closeList
  /-- A map in braces opens. -/
  | openMap
  /-- A map in braces closes. -/
  | closeMap
  /-- A comma. -/
  | comma
  /-- A block of items opens. -/
  | listBlock
  /-- A block of keys opens. -/
  | mapBlock
  /-- A block closes. -/
  | endBlock
  /-- An item of a block. -/
  | item
  /-- A key follows. -/
  | key
  /-- The value of a key follows. -/
  | value
  /-- A scalar, plain or quoted. -/
  | scalar (plain : Bool) (s : String)
  /-- The place from which on the text cannot be cut. -/
  | fault (f : ReadFault)
deriving DecidableEq, Repr

/-- A token that a colon may still make a key. -/
structure KeyPlace where
  /-- How many tokens stand in front of it. -/
  token : Nat
  /-- It can be nothing but a key. -/
  required : Bool
  /-- Where it stands. -/
  index : Nat
  /-- Its line. -/
  line : Nat
  /-- Its column. -/
  column : Nat

/-- The state of the reading. -/
structure Scan where
  /-- The place in the text. -/
  cursor : Cursor
  /-- The possible keys, one place for the block and one for each open bracket, innermost first. -/
  keys : List (Option KeyPlace)
  /-- The columns of the open blocks, innermost first. -/
  blocks : List Nat
  /-- A key may start here. -/
  keyAllowed : Bool
  /-- The tokens so far, last to first. -/
  tokens : List Token

namespace Scan

/-- The state at the start of a text. -/
def start (s : List Char) : Scan := ⟨.ofText s, [none], [], true, []⟩

/-- Inside brackets. -/
def inFlow (s : Scan) : Bool := 1 < s.keys.length

/-- The column of the innermost block. -/
def indent (s : Scan) : Int :=
  match s.blocks with
  | [] => -1
  | b :: _ => b

/-- The state with a token added. -/
def emit (s : Scan) (t : Token) : Scan := { s with tokens := t :: s.tokens }

/-- The state behind `n` characters. -/
def advance (s : Scan) (n : Nat) : Scan := { s with cursor := s.cursor.advance n }

/-- The possible key at this level. -/
def keyHere (s : Scan) : Option KeyPlace := s.keys.head?.join

/-- The state with another possible key at this level. -/
def setKey (s : Scan) (k : Option KeyPlace) : Scan := { s with keys := k :: s.keys.tail }

/-- No key is possible at this level any more; fails where there has to be one. -/
def dropKey (s : Scan) : Option Scan :=
  if s.keyHere.any (·.required) then none else some (s.setKey none)

/-- The token that comes next may turn out to be a key. -/
def saveKey (s : Scan) : Option Scan :=
  if s.keyAllowed then do
    let required := !s.inFlow && s.indent == s.cursor.column
    let s ← s.dropKey
    let c := s.cursor
    return s.setKey (some ⟨s.tokens.length, required, c.index, c.line, c.column⟩)
  else some s

/-- A key is no longer possible: the line is over, or it would be too long. -/
def KeyPlace.isStale (c : Cursor) (k : KeyPlace) : Bool :=
  k.line != c.line || k.index + 1024 < c.index

/-- The state without the keys that are no longer possible; fails where one has to be. -/
def dropStale (s : Scan) : Option Scan :=
  if s.keys.any fun k => k.any fun k => KeyPlace.isStale s.cursor k && k.required then none
  else
    let fresh (k : Option KeyPlace) := k.filter fun k => !KeyPlace.isStale s.cursor k
    some { s with keys := s.keys.map fresh }

/-- The state with the blocks closed that are indented further than `column`. -/
def unwind (column : Int) (s : Scan) : Scan :=
  if s.inFlow then s
  else
    let isInner (b : Nat) : Bool := column < (b : Int)
    let ended := (s.blocks.takeWhile isInner).map fun _ => Token.endBlock
    { s with blocks := s.blocks.dropWhile isInner, tokens := ended ++ s.tokens }

/-- The state with a block at a column, `t` opening it, if that is further in than the last. -/
def openBlock (s : Scan) (column : Nat) (t : Token) : Scan :=
  if s.indent < column then { s with blocks := column :: s.blocks, tokens := t :: s.tokens }
  else s

/-- The state with a token put in front of the last ones, `n` standing in front of it. -/
def insertToken (s : Scan) (n : Nat) (t : Token) : Scan :=
  let k := s.tokens.length - n
  { s with tokens := s.tokens.take k ++ t :: s.tokens.drop k }

/-- The state at the next token: blanks, comments and line breaks are left out. -/
def skipBlank : (rounds : Nat) → Scan → Scan
  | 0, s => s
  | n + 1, s =>
    let c := (s.cursor.takeWhile (· == ' ')).2
    let c := if c.is (· == '#') false then (c.takeWhile fun x => !isBreak x).2 else c
    if c.is isBreak false then
      -- a line break outside of brackets allows a key again
      skipBlank n { s with cursor := c.next, keyAllowed := s.keyAllowed || !s.inFlow }
    else { s with cursor := c }

/-! ## The tokens -/

/-- A mark that starts or ends a document. -/
def documentMark (s : Scan) (t : Token) : Option Scan := do
  let s ← (s.unwind (-1)).dropKey
  return ({ s with keyAllowed := false }.advance 3).emit t

/-- A bracket that opens. -/
def openBracket (s : Scan) (t : Token) : Option Scan := do
  let s ← s.saveKey
  return ({ s with keys := none :: s.keys, keyAllowed := true }.advance 1).emit t

/-- A bracket that closes. -/
def closeBracket (s : Scan) (t : Token) : Option Scan := do
  if !s.inFlow then none
  let s ← s.dropKey
  return ({ s with keys := s.keys.tail, keyAllowed := false }.advance 1).emit t

/-- A comma. -/
def comma (s : Scan) : Option Scan := do
  let s ← s.dropKey
  return ({ s with keyAllowed := true }.advance 1).emit .comma

/-- The sign of an item. -/
def item (s : Scan) : Option Scan := do
  if !s.inFlow && !s.keyAllowed then none
  let s := if s.inFlow then s else s.openBlock s.cursor.column .listBlock
  let s ← s.dropKey
  return ({ s with keyAllowed := true }.advance 1).emit .item

/-- The sign of a key. -/
def explicitKey (s : Scan) : Option Scan := do
  if !s.inFlow && !s.keyAllowed then none
  let s := if s.inFlow then s else s.openBlock s.cursor.column .mapBlock
  let s ← s.dropKey
  return ({ s with keyAllowed := !s.inFlow }.advance 1).emit .key

/-- The sign of a value. -/
def value (s : Scan) : Option Scan :=
  match s.keyHere with
  | some k =>
    let s := (s.setKey none).insertToken k.token .key
    let s :=
      if !s.inFlow && s.indent < k.column then
        { s with blocks := k.column :: s.blocks }.insertToken k.token .mapBlock
      else s
    some (({ s with keyAllowed := false }.advance 1).emit .value)
  | none => do
    if !s.inFlow && !s.keyAllowed then none
    let s := if s.inFlow then s else s.openBlock s.cursor.column .mapBlock
    let s ← ({ s with keyAllowed := !s.inFlow }).dropKey
    return (s.advance 1).emit .value

/-- A block scalar. -/
def blockScalar (fold : Bool) (s : Scan) : Option Scan := do
  let s ← ({ s with keyAllowed := true }).dropKey
  let (t, c) ← blockText fold s.indent s.cursor.next
  return { s with cursor := c }.emit (.scalar false (String.ofList t))

/-- A quoted scalar. -/
def quotedScalar (q : Char) (s : Scan) : Except ReadFault Scan := do
  let s ← ReadFault.demand s.saveKey
  let (t, c) ← quotedText q (s.cursor.rest.length + 1) s.cursor.next
  return { s with cursor := c, keyAllowed := false }.emit (.scalar false (String.ofList t))

/-- A plain scalar. -/
def plainScalar (s : Scan) : Option Scan := do
  let s ← s.saveKey
  let (t, broken, c) :=
    plainText s.inFlow (s.indent + 1) (s.cursor.rest.length + 1) [] false s.cursor
  return { s with cursor := c, keyAllowed := broken }.emit (.scalar true (String.ofList t))

/-- A character that starts no plain scalar. -/
def isMark (c : Char) : Bool := "-?:,[]#&*!|>'\"%@".toList.contains c || c.toNat == 96 ||
  c == '\x7b' || c == '\x7d'

/-- The token that starts with a character other than a quote. -/
def unquotedAt? (s : Scan) (x : Char) : Option Scan :=
  let c := s.cursor
  let spaced := s.inFlow || c.blankAfter 1
  if x = '%' ∧ c.column = 0 then none
  else if c.column = 0 ∧ c.isMark "---" then s.documentMark .documentStart
  else if c.column = 0 ∧ c.isMark "..." then s.documentMark .documentEnd
  else if x = '[' then s.openBracket .openList
  else if x = '\x7b' then s.openBracket .openMap
  else if x = ']' then s.closeBracket .closeList
  else if x = '\x7d' then s.closeBracket .closeMap
  else if x = ',' then s.comma
  else if x = '-' ∧ c.blankAfter 1 then s.item
  else if x = '?' ∧ spaced then s.explicitKey
  else if x = ':' ∧ spaced then s.value
  else if x = '|' ∧ !s.inFlow then s.blockScalar false
  else if x = '>' ∧ !s.inFlow then s.blockScalar true
  else if (!isSpace x && !isMark x) ||
      (!c.blankAfter 1 && (x == '-' || (!s.inFlow && (x == '?' || x == ':')))) then
    s.plainScalar
  else none

/-- The token that starts with a character. -/
def tokenAt (s : Scan) (x : Char) : Except ReadFault Scan :=
  if x = '\'' ∨ x = '"' then s.quotedScalar x else ReadFault.demand (s.unquotedAt? x)

/-- The first token that a colon may still make a key; all tokens in front of it are settled. -/
def settled (s : Scan) : Nat :=
  let waiting := s.keys.filterMap fun k => k.filter fun k => !KeyPlace.isStale s.cursor k
  (waiting.map KeyPlace.token).foldl Nat.min s.tokens.length

/-- The tokens of a text that cannot be cut further. -/
def brokenOff (s : Scan) (f : ReadFault) : List Token :=
  s.tokens.reverse.take s.settled ++ [.fault f]

/-- The tokens of a text. -/
def run : (rounds : Nat) → Scan → List Token
  | 0, s => s.brokenOff .malformed
  | n + 1, s =>
    match (s.skipBlank (s.cursor.rest.length + 1)).dropStale with
    | none => s.brokenOff .malformed
    | some t =>
      let t := t.unwind t.cursor.column
      match t.cursor.peek with
      | none =>
        match (t.unwind (-1)).dropKey with
        | some t => t.tokens.reverse
        | none => s.brokenOff .malformed
      | some x =>
        match t.tokenAt x with
        | .ok t => run n t
        | .error f => s.brokenOff f

end Scan

/-- The tokens of a text. -/
def tokens (s : List Char) : List Token :=
  if s.all isAllowed then
    let s := if s.head? = some '\uFEFF' then s.tail else s
    Scan.run (s.length + 2) (.start s)
  else [.fault .malformed]

end PayloadTypes.Yaml
