import PayloadTypes.Data.Value
/-!
# Writing JSON texts

A value is written on one line, or with every item and entry on a line of
its own. Strings keep their characters or are written in ASCII, where a
character beyond the first plane is a pair of surrogates.
-/

namespace PayloadTypes.Json

/-- How values are laid out. -/
structure Layout where
  /-- Strings are written in ASCII. -/
  ascii : Bool
  /-- Each level is indented by so many blanks; without it all stands on one line. -/
  indent : Option Nat

/-- One line, every character as it is. -/
def Layout.line : Layout := ⟨false, none⟩

/-- Indented by two, every character as it is. -/
def Layout.shown : Layout := ⟨false, some 2⟩

/-- Indented by two, in ASCII. -/
def Layout.stored : Layout := ⟨true, some 2⟩

/-- What separates items at a depth. -/
def Layout.gap (l : Layout) (depth : Nat) : List Char :=
  match l.indent with
  | none => []
  | some n => '\n' :: List.replicate (n * depth) ' '

/-- What stands between a key and its value. -/
def Layout.colon (l : Layout) : List Char :=
  match l.indent with
  | none => [':']
  | some _ => [':', ' ']

/-- An escape of four digits. -/
def escapeUnit (u : Nat) : List Char := '\\' :: 'u' :: Text.hexDigits 4 u

/-- One character of a string. -/
def escapeChar (ascii : Bool) (c : Char) : List Char :=
  if c = '"' ∨ c = '\\' then ['\\', c]
  else if c = '\n' then ['\\', 'n']
  else if c = '\r' then ['\\', 'r']
  else if c = '\t' then ['\\', 't']
  else if c.toNat = 8 then ['\\', 'b']
  else if c.toNat = 12 then ['\\', 'f']
  else if c.toNat < 32 then escapeUnit c.toNat
  else if c.toNat < 127 ∨ !ascii then [c]
  else if c.toNat < 0x10000 then escapeUnit c.toNat
  else
    -- a character of another plane is a pair of units
    let n := c.toNat - 0x10000
    escapeUnit (0xD800 + n / 0x400) ++ escapeUnit (0xDC00 + n % 0x400)

/-- A string in its quotes. -/
def quoted (ascii : Bool) (s : List Char) : List Char :=
  '"' :: s.flatMap (escapeChar ascii) ++ ['"']

/-- The text of a floating point number. -/
def floatText (x : Float) : List Char :=
  match Decimal.parts x with
  | .nan => "NaN".toList
  | .infinite negative => (if negative then "-Infinity" else "Infinity").toList
  | .finite .. => Decimal.floatText x

/-- The text of a value that holds no others. -/
def scalarText (ascii : Bool) : Value → List Char
  | .null => "null".toList
  | .bool b => (if b then "true" else "false").toList
  | .int i => Text.intDigits i
  | .float x => floatText x
  | .moment m => quoted ascii m.text
  | .text s => quoted ascii s.toList
  | .list _ => []
  | .map _ => []

/-- A key, which is always a string. -/
def keyText (ascii : Bool) : Value → List Char
  | .text s => quoted ascii s.toList
  | .moment m => quoted ascii m.text
  | v => quoted ascii (scalarText ascii v)

mutual
/-- A value at a depth. -/
def renderAt (l : Layout) (depth : Nat) : Value → List Char
  | .list [] => ['[', ']']
  | .list (v :: vs) =>
    '[' :: l.gap (depth + 1) ++ renderItems l (depth + 1) (v :: vs) ++ l.gap depth ++ [']']
  | .map [] => ['\x7b', '\x7d']
  | .map (e :: es) =>
    '\x7b' :: l.gap (depth + 1) ++ renderEntries l (depth + 1) (e :: es) ++ l.gap depth ++
      ['\x7d']
  | v => scalarText l.ascii v
/-- The items of a list at a depth. -/
def renderItems (l : Layout) (depth : Nat) : List Value → List Char
  | [] => []
  | [v] => renderAt l depth v
  | v :: w :: vs =>
    renderAt l depth v ++ ',' :: l.gap depth ++ renderItems l depth (w :: vs)
/-- The entries of a map at a depth. -/
def renderEntries (l : Layout) (depth : Nat) : List (Value × Value) → List Char
  | [] => []
  | [(k, v)] => keyText l.ascii k ++ l.colon ++ renderAt l depth v
  | (k, v) :: e :: es =>
    keyText l.ascii k ++ l.colon ++ renderAt l depth v ++ ',' :: l.gap depth ++
      renderEntries l depth (e :: es)
end

/-- The text of a value. -/
def render (l : Layout) (v : Value) : String := String.ofList (renderAt l 0 v)

end PayloadTypes.Json
