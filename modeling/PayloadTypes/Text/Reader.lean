import PayloadTypes.Text.Cut
import PayloadTypes.Text.Word
/-!
# Readers

A reader takes a value off the front of a text and leaves the rest, or
refuses. Readers are put together with `do` and `<|>`; the repeating ones
take as much as they can. `blanksThen` alone gives blanks back, for the
places where what follows may start with one.

`find?` looks for the first place where a reader accepts and `findEach` for
all of them, left to right and without overlap. A reader that is searched
for is told the character in front of the place.
-/

namespace PayloadTypes.Text

/-- Takes a value off the front of a text, or refuses. -/
abbrev Reader := StateT (List Char) Option

namespace Reader

/-- One character that satisfies `p`. -/
def one (p : Char → Bool) : Reader Char := fun s =>
  match s with
  | [] => none
  | c :: r => if p c then some (c, r) else none

/-- The character `c`. -/
def char (c : Char) : Reader Unit := fun s =>
  match s with
  | [] => none
  | d :: r => if d = c then some ((), r) else none

/-- The text `w`. -/
def text (w : String) : Reader Unit := fun s => (after? w.toList s).map fun r => ((), r)

/-- Nothing is left. -/
def atEnd : Reader Unit := fun s => if s.isEmpty then some ((), s) else none

/-- The longest run of characters that satisfy `p`, which may be empty. -/
def many (p : Char → Bool) : Reader (List Char) := fun s => some (s.takeWhile p, s.dropWhile p)

/-- The longest run of characters that satisfy `p`, at least one. -/
def many1 (p : Char → Bool) : Reader (List Char) := do
  let c ← one p
  let s ← many p
  return c :: s

/-- Blanks, if there are any. -/
def blanks : Reader Unit := do
  let _ ← many isBlank

/-- At least one blank. -/
def blanks1 : Reader Unit := do
  let _ ← many1 isBlank

/-- What `r` reads, if it accepts. -/
def maybe {α : Type} (r : Reader α) : Reader (Option α) := fun s =>
  match r s with
  | some (a, rest) => some (some a, rest)
  | none => some (none, s)

/-- What `r` reads as often as it accepts, at most `n` times. -/
def upTo {α : Type} (r : Reader α) : (n : Nat) → Reader (List α)
  | 0 => pure []
  | n + 1 => do
    match ← maybe r with
    | none => return []
    | some a => return a :: (← upTo r n)

/-- What `r` reads as often as it accepts; it has to take something each time. -/
def repeated {α : Type} (r : Reader α) : Reader (List α) := fun s => upTo r s.length s

/-- The first of several words. -/
def oneOf (words : List String) : Reader String := fun s =>
  words.findSome? fun w => (text w s).map fun p => (w, p.2)

/-- An identifier: an ASCII letter or underscore, then letters, digits and underscores. -/
def identifier : Reader (List Char) := do
  let c ← one isIdentStart
  let s ← many isIdentChar
  return c :: s

/-- The place does not stand in front of a word character. -/
def wordEnd : Reader Unit := fun s =>
  match s with
  | [] => some ((), s)
  | c :: _ => if isWord c then none else some ((), s)

/-- The text that `r` takes. -/
def span {α : Type} (r : Reader α) : Reader (List Char) := fun s =>
  (r s).map fun p => (s.take (s.length - p.2.length), p.2)

/-- The end of the text, or a line break that ends it. -/
def lastLineEnd : Reader Unit := fun s =>
  match s with
  | [] => some ((), [])
  | ['\n'] => some ((), s)
  | _ => none

/-- One blank or more and then what `r` reads: as many blanks as let `r` accept. -/
def blanksThen {α : Type} (r : Reader α) : Reader α
  | [] => none
  | c :: s => if isBlank c then (blanksThen r s).orElse fun _ => r s else none

/-- The shortest non-empty text within a line after which `r` accepts. -/
def lineUntil {α : Type} (r : Reader α) : Reader (List Char × α)
  | [] => none
  | c :: s =>
    if c = '\n' then none
    else
      match r s with
      | some (a, rest) => some (([c], a), rest)
      | none => (lineUntil r s).map fun p => ((c :: p.1.1, p.1.2), p.2)

/-- The whole text is what `r` accepts. -/
def accepts? {α : Type} (r : Reader α) (s : List Char) : Option α := (r s).map Prod.fst

/-- A reader that is told the character in front of it. -/
abbrev Placed (α : Type) := Option Char → Reader α

/-- Only where no word character stands in front. -/
def wordStart {α : Type} (r : Reader α) : Placed α := fun prev s =>
  match prev with
  | some c => if isWord c then none else r s
  | none => r s

/-- Only at the start of a line. -/
def lineStart {α : Type} (r : Reader α) : Placed α := fun prev s =>
  match prev with
  | some c => if c = '\n' then r s else none
  | none => r s

/-- Anywhere. -/
def anywhere {α : Type} (r : Reader α) : Placed α := fun _ => r

/-- What a search found: the text before, the value and the text after. -/
structure Found (α : Type) where
  /-- The text in front of the place. -/
  before : List Char
  /-- The value read there. -/
  value : α
  /-- The text that is left. -/
  after : List Char

/-- The first place where `r` accepts, `prev` standing in front of the text. -/
def findFrom? {α : Type} (r : Placed α) (prev : Option Char) : List Char → Option (Found α)
  | [] => none
  | c :: s =>
    match r prev (c :: s) with
    | some (a, rest) => some ⟨[], a, rest⟩
    | none => (findFrom? r (some c) s).map fun f => { f with before := c :: f.before }

/-- The first place where `r` accepts. -/
def find? {α : Type} (r : Placed α) (s : List Char) : Option (Found α) := findFrom? r none s

/-- `r` accepts somewhere. -/
def occurs {α : Type} (r : Placed α) (s : List Char) : Bool := (find? r s).isSome

/-- The places where `r` accepts, `seen` standing in front of the text, last to first, and
`skip` characters of the text being taken already. -/
def findEachFrom {α : Type} (r : Placed α) (seen : List Char) (skip : Nat) :
    List Char → List (Found α)
  | [] => []
  | c :: s =>
    match skip with
    | n + 1 => findEachFrom r (c :: seen) n s
    | 0 =>
      match r seen.head? (c :: s) with
      | some (a, rest) =>
        -- the characters that were read are passed over one by one, so that `seen` stays right
        ⟨seen.reverse, a, rest⟩ :: findEachFrom r (c :: seen) (s.length - rest.length) s
      | none => findEachFrom r (c :: seen) 0 s

/-- The places where `r` accepts, left to right and without overlap. -/
def findEach {α : Type} (r : Placed α) (s : List Char) : List (Found α) :=
  findEachFrom r [] 0 s

/-- The values `r` reads, left to right and without overlap. -/
def findAll {α : Type} (r : Placed α) (s : List Char) : List α :=
  (findEach r s).map Found.value

/-- The text with what `r` reads replaced, `skip` characters being replaced already. -/
def replaceFrom (r : Placed (List Char)) (prev : Option Char) (skip : Nat) :
    List Char → List Char
  | [] => []
  | c :: s =>
    match skip with
    | n + 1 => replaceFrom r (some c) n s
    | 0 =>
      match r prev (c :: s) with
      | some (new, rest) => new ++ replaceFrom r (some c) (s.length - rest.length) s
      | none => c :: replaceFrom r (some c) 0 s

/-- The text with everything `r` reads replaced by the value read. -/
def replaceAll (r : Placed (List Char)) (s : List Char) : List Char := replaceFrom r none 0 s

end Reader

end PayloadTypes.Text
