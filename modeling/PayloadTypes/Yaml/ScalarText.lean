import PayloadTypes.Yaml.Cursor
/-!
# Scalars of YAML texts

The text of a scalar in its four forms. Line breaks inside plain and quoted
scalars are folded: one becomes a blank, further ones stay. A block scalar
keeps its breaks or folds them between lines that do not start with a
blank. Every loop goes on for at most as many rounds as there are
characters.
-/

namespace PayloadTypes.Yaml

/-- What a break and the ones behind it become when they are folded. -/
def folded (b : Char) (more : List Char) : List Char :=
  (if b ≠ '\n' then [b] else if more.isEmpty then [' '] else []) ++ more

/-! ## Quoted scalars -/

/-- The breaks from the start of a line on, blanks left out. -/
def quotedBreaks : (rounds : Nat) → Cursor → Option (List Char × Cursor)
  | 0, _ => none
  | n + 1, c =>
    -- a mark of a document may not stand in a quoted scalar
    if c.isDocumentMark then none
    else
      let c := (c.takeWhile isSpace).2
      match c.peek with
      | some b =>
        if isBreak b then (quotedBreaks n c.next).map fun p => (b :: p.1, p.2)
        else some ([], c)
      | none => some ([], c)

/-- The character of an escape of one letter. -/
def escapeLetter? (c : Char) : Option Char :=
  match c with
  | '0' => some (Char.ofNat 0)
  | 'a' => some '\x07'
  | 'b' => some '\x08'
  | 't' => some '\t'
  | '\t' => some '\t'
  | 'n' => some '\n'
  | 'v' => some '\x0b'
  | 'f' => some '\x0c'
  | 'r' => some '\r'
  | 'e' => some '\x1b'
  | ' ' => some ' '
  | '"' => some '"'
  | '\\' => some '\\'
  | '/' => some '/'
  | 'N' => some '\x85'
  | '_' => some '\xa0'
  | 'L' => some '\u2028'
  | 'P' => some '\u2029'
  | _ => none

/-- How many digits an escape by code point has. -/
def escapeWidth? (c : Char) : Option Nat :=
  if c = 'x' then some 2 else if c = 'u' then some 4 else if c = 'U' then some 8 else none

/-- The character of a code point; a surrogate becomes U+FFFD. -/
def ofCodePoint (n : Nat) : Except ReadFault Char :=
  if 0x80000000 ≤ n then .error .hugeCode
  else if 0x10FFFF < n then .error .noCharacter
  else .ok (if n.isValidChar then Char.ofNat n else '\uFFFD')

/-- The text of an escape, from behind its backslash. -/
def escape (rounds : Nat) (c : Cursor) : Except ReadFault (List Char × Cursor) := do
  let x ← ReadFault.demand c.peek
  match escapeLetter? x with
  | some y => return ([y], c.next)
  | none =>
    match escapeWidth? x with
    | some w =>
      let ds := c.next.rest.take w
      if ds.length = w then
        let y ← ofCodePoint (← ReadFault.demand (Json.hexNumber? ds))
        return ([y], c.advance (w + 1))
      else .error .malformed
    | none => if isBreak x then ReadFault.demand (quotedBreaks rounds c.next) else .error .malformed

/-- The text of a scalar in quotes `q`, from behind the first one to behind the last one. -/
def quotedText (q : Char) : (rounds : Nat) → Cursor → Except ReadFault (List Char × Cursor)
  | 0, _ => .error .malformed
  | n + 1, c =>
    match c.peek with
    | none => .error .malformed
    | some x =>
      let more := fun (p : List Char × Cursor) =>
        (quotedText q n p.2).map fun r => (p.1 ++ r.1, r.2)
      if isSpace x || isBreak x then
        let (blanks, c) := c.takeWhile isSpace
        match c.peek with
        | none => .error .malformed
        | some b =>
          if isBreak b then
            (ReadFault.demand (quotedBreaks n c.next)).bind fun p => more (folded b p.1, p.2)
          else more (blanks, c)
      else if q = '\'' ∧ x = '\'' ∧ c.peekNext = some '\'' then more (['\''], c.next.next)
      else if x = q then .ok ([], c.next)
      else if q = '"' ∧ x = '\\' then (escape n c.next).bind more
      else more ([x], c.next)

/-! ## Plain scalars -/

/-- A character that cannot stand in a plain scalar within brackets. -/
def isFlowMark (c : Char) : Bool :=
  c == ',' || c == '?' || c == '[' || c == ']' || c == '\x7b' || c == '\x7d'

/-- A colon ends a plain scalar in front of this. -/
def colonEnds (flow : Bool) : List Char → Bool
  | [] => true
  | c :: _ => isSpace c || isBreak c || (flow && isFlowMark c && c != '?')

/-- What a plain scalar takes of a line without blanks. -/
def plainPiece (flow : Bool) : List Char → List Char
  | [] => []
  | c :: s =>
    if isSpace c || isBreak c || (c == ':' && colonEnds flow s) || (flow && isFlowMark c) then []
    else c :: plainPiece flow s

/-- The breaks inside a plain scalar, blanks left out; nothing at the start of a document. -/
def plainBreaks : (rounds : Nat) → Cursor → Option (List Char) × Cursor
  | 0, c => (none, c)
  | n + 1, c =>
    if c.isDocumentMark then (none, c)
    else
      let c := (c.takeWhile (· == ' ')).2
      match c.peek with
      | some b =>
        if isBreak b then
          let (bs, c) := plainBreaks n c.next
          (bs.map (b :: ·), c)
        else (some [], c)
      | none => (some [], c)

/-- What stands between two pieces of a plain scalar, whether it holds a line break, and the place
behind it. -/
def plainGap (rounds : Nat) (c : Cursor) : List Char × Bool × Cursor :=
  let (blanks, c) := c.takeWhile (· == ' ')
  match c.peek with
  | some b =>
    if isBreak b then
      let (bs, c) := plainBreaks rounds c.next
      match bs with
      | some bs => (folded b bs, true, c)
      | none => ([], true, c)
    else (blanks, false, c)
  | none => (blanks, false, c)

/-- The text of a plain scalar that is indented by `indent`, whether a line break stands behind
it, and the place there. -/
def plainText (flow : Bool) (indent : Int) :
    (rounds : Nat) → (gap : List Char) → (broken : Bool) → Cursor → List Char × Bool × Cursor
  | 0, _, broken, c => ([], broken, c)
  | n + 1, gap, broken, c =>
    match plainPiece flow c.rest with
    | [] => ([], broken, c)
    | piece =>
      let (gap', broken', c') := plainGap n (c.advance piece.length)
      if gap'.isEmpty || c'.is (· == '#') false || (!flow && (c'.column : Int) < indent) then
        (gap ++ piece, broken', c')
      else
        let (more, b, c'') := plainText flow indent n gap' broken' c'
        (gap ++ piece ++ more, b, c'')

/-! ## Block scalars -/

/-- Whether the breaks at the end of a block scalar are dropped, one is kept, or all are. -/
inductive Chomping where
  /-- They are dropped. -/
  | strip
  /-- One is kept. -/
  | clip
  /-- All are kept. -/
  | keep
deriving DecidableEq, Repr

/-- A sign that tells how a block scalar ends. -/
def chomping? (c : Char) : Option Chomping :=
  if c = '+' then some .keep else if c = '-' then some .strip else none

/-- The header of a block scalar: how it ends, and by how much it is indented. -/
def blockHeader? : List Char → Option (Chomping × Option Nat)
  | [] => some (.clip, none)
  | [x] =>
    match chomping? x with
    | some k => some (k, none)
    | none => if x.isDigit ∧ x ≠ '0' then some (.clip, some (x.toNat - 48)) else none
  | [x, y] =>
    match chomping? x, chomping? y with
    | some k, none => if y.isDigit ∧ y ≠ '0' then some (k, some (y.toNat - 48)) else none
    | none, some k => if x.isDigit ∧ x ≠ '0' then some (k, some (x.toNat - 48)) else none
    | _, _ => none
  | _ => none

/-- The place behind the blanks up to a column. -/
def skipIndent (indent : Nat) (c : Cursor) : Cursor :=
  c.advance ((c.rest.takeWhile (· == ' ')).length.min (indent - c.column))

/-- The breaks of lines that hold no more than their indentation. -/
def blockBreaks (indent : Nat) : (rounds : Nat) → Cursor → List Char × Cursor
  | 0, c => ([], c)
  | n + 1, c =>
    let c := skipIndent indent c
    match c.peek with
    | some b =>
      if isBreak b then
        let (bs, c) := blockBreaks indent n c.next
        (b :: bs, c)
      else ([], c)
    | none => ([], c)

/-- The breaks in front of the first line, and the widest indentation met there. -/
def leadingBreaks : (rounds : Nat) → (widest : Nat) → Cursor → List Char × Nat × Cursor
  | 0, m, c => ([], m, c)
  | n + 1, m, c =>
    match c.peek with
    | some b =>
      if b = ' ' then leadingBreaks n (m.max c.next.column) c.next
      else if isBreak b then
        let (bs, m, c) := leadingBreaks n m c.next
        (b :: bs, m, c)
      else ([], m, c)
    | none => ([], m, c)

/-- The lines of a block scalar behind the breaks `before`: their text, the last break, the breaks
behind that, and the place there. -/
def blockLines (fold : Bool) (indent : Nat) :
    (rounds : Nat) → (before : List Char) → Cursor → List Char × List Char × List Char × Cursor
  | 0, before, c => ([], [], before, c)
  | n + 1, before, c =>
    if c.column = indent ∧ c.rest ≠ [] then
      let dense := !c.is isSpace false
      let (line, c) := c.takeWhile fun x => !isBreak x
      let last := c.peek.toList
      let (breaks, c) := blockBreaks indent n c.next
      if c.column = indent ∧ c.rest ≠ [] then
        let between :=
          if fold && last == ['\n'] && dense && !c.is isSpace false then
            (if breaks.isEmpty then [' '] else [])
          else last
        let (more, last, after, c) := blockLines fold indent n breaks c
        (before ++ line ++ between ++ more, last, after, c)
      else (before ++ line, last, breaks, c)
    else ([], [], before, c)

/-- The text of a block scalar within indentation `outer`, from behind its first mark on. -/
def blockText (fold : Bool) (outer : Int) (c : Cursor) : Option (List Char × Cursor) := do
  let (header, c) := c.takeWhile fun x => x == '+' || x == '-' || x.isDigit
  let (chomp, given) ← blockHeader? header
  if !c.is (fun x => x == ' ' || isBreak x) true then none
  let c := (c.takeWhile (· == ' ')).2
  let c := if c.is (· == '#') false then (c.takeWhile fun x => !isBreak x).2 else c
  if !c.is isBreak true then none
  let c := c.next
  let rounds := c.rest.length + 1
  let least := (outer + 1).toNat.max 1
  let (before, indent, c) :=
    match given with
    | some k =>
      let (bs, c) := blockBreaks (least + k - 1) rounds c
      (bs, least + k - 1, c)
    | none =>
      let (bs, widest, c) := leadingBreaks rounds 0 c
      (bs, least.max widest, c)
  let (body, last, after, c) := blockLines fold indent rounds before c
  return (match chomp with
    | .strip => body
    | .clip => body ++ last
    | .keep => body ++ last ++ after, c)

end PayloadTypes.Yaml
