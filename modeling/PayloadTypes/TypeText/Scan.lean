import PayloadTypes.Text.Cut
/-!
# Scanning type texts

A type is carried as its text. Going through it, one is outside of quotes
at some depth of brackets, or inside of a quoted text. A separator counts
only outside of quotes and at depth zero; a bracket that closes nothing
leaves the depth at zero.
-/

namespace PayloadTypes.TypeText

/-- Where in a type text one is. -/
inductive Scan where
  /-- Outside of quotes, inside of so many brackets. -/
  | plain (depth : Nat)
  /-- Inside quotes `q`; `escaped` right behind a backslash that counts. -/
  | quoted (depth : Nat) (q : Char) (escaped : Bool)
deriving DecidableEq, Repr

/-- A quote. -/
def isQuote (c : Char) : Bool := c == '\'' || c == '"'

/-- An opening bracket of any kind. -/
def isOpener (c : Char) : Bool := c == '<' || c == '(' || c == '[' || c == '\x7b'

/-- A closing bracket of any kind. -/
def isCloser (c : Char) : Bool := c == '>' || c == ')' || c == ']' || c == '\x7d'

/-- Where one is after a character. -/
def Scan.step : Scan → Char → Scan
  -- what stands behind a backslash is neither a quote nor a backslash
  | .quoted d q true, _ => .quoted d q false
  | .quoted d q false, c =>
    if c = '\\' then .quoted d q true else if c = q then .plain d else .quoted d q false
  | .plain d, c =>
    if isQuote c then .quoted d c false
    else if isOpener c then .plain (d + 1)
    -- brackets that close nothing do not count
    else if isCloser c then .plain (d - 1)
    else .plain d

/-- Where one is after a text. -/
def Scan.after (st : Scan) (s : List Char) : Scan := s.foldl Scan.step st

/-- Outside of quotes. -/
def Scan.isPlain : Scan → Bool
  | .plain _ => true
  | .quoted .. => false

/-- The character `c` separates here. -/
def Scan.separates (st : Scan) (sep c : Char) : Bool :=
  st == .plain 0 && c == sep && !isQuote c && !isOpener c && !isCloser c

/-- The parts of a text between its separators, from a place on. -/
def splitFrom (sep : Char) : Scan → List Char → List (List Char)
  | _, [] => [[]]
  | st, c :: s =>
    if st.separates sep c then [] :: splitFrom sep st s
    else
      match splitFrom sep (st.step c) s with
      | [] => [[c]]
      | p :: ps => (c :: p) :: ps

/-- The parts of a text between the separators outside of brackets and quotes. -/
def splitTopLevel (sep : Char) (s : List Char) : List (List Char) := splitFrom sep (.plain 0) s

/-- A text from a place on, without its quoted texts. -/
def withoutQuotedFrom : Scan → List Char → List Char
  | _, [] => []
  | st, c :: s =>
    if st.isPlain && !isQuote c then c :: withoutQuotedFrom (st.step c) s
    else withoutQuotedFrom (st.step c) s

/-- The text without its quoted texts. -/
def withoutQuoted (s : List Char) : List Char := withoutQuotedFrom (.plain 0) s

end PayloadTypes.TypeText
