import PayloadTypes.Text.Blank
import PayloadTypes.Text.CaseTable
/-!
# Lower case

`lower` gives the lower case form of a text in any script. Two letters are
special: the dotted capital I becomes two characters, and the capital sigma
becomes the final sigma where it ends a word.
-/

namespace PayloadTypes.Text

/-- The letter that a run of upper case letters gives to code point `n`. -/
def LowerRun.lower? (r : LowerRun) (n : Nat) : Option Nat :=
  if r.first ≤ n && n ≤ r.last && (n - r.first) % r.step == 0 then
    some (r.target + (n - r.first))
  else none

/-- The lower case form of one character, its neighbours left aside. -/
def lowerChar (c : Char) : List Char :=
  if c.toNat < 128 then [c.toLower]
  else if c.toNat = 0x130 then ['i', Char.ofNat 0x307]
  else
    match lowerRuns.findSome? (LowerRun.lower? · c.toNat) with
    | some n => [Char.ofNat n]
    | none => [c]

/-- A character that the search for a neighbouring letter passes over. -/
def isCaseIgnorable (c : Char) : Bool :=
  if c.toNat < 128 then c == '\'' || c == '.' || c == ':' || c == '^' || c.toNat == 96
  else inRanges caseIgnorableRanges c.toNat

/-- A letter that has case. -/
def isCased (c : Char) : Bool :=
  if c.toNat < 128 then c.isAlpha else inRanges casedRanges c.toNat

/-- The next letter or other character that counts is a letter with case. -/
def startsCased (s : List Char) : Bool :=
  match s.dropWhile isCaseIgnorable with
  | [] => false
  | c :: _ => isCased c

/-- Lower case of a text that follows a letter with case, or does not. -/
def lowerAfter (cased : Bool) : List Char → List Char
  | [] => []
  | c :: s =>
    (if c.toNat = 0x3A3 then [if cased && !startsCased s then 'ς' else 'σ'] else lowerChar c) ++
      lowerAfter (if isCaseIgnorable c then cased else isCased c) s

/-- The lower case form of a text. -/
def lower (s : List Char) : List Char := lowerAfter false s

/-- The lower case form of a text. -/
def lowerText (s : String) : String := String.ofList (lower s.toList)

end PayloadTypes.Text
