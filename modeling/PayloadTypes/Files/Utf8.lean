import PayloadTypes.Text.Digit
import PayloadTypes.Text.Quoted
/-!
# Text in bytes

Text is stored in UTF-8. Bytes that are no text have a first fault: a byte
that starts no character, a character that is not continued, or one that
the end cuts off. Where faults are to be passed over, each becomes U+FFFD.
-/

namespace PayloadTypes.Files

/-- Why bytes are no text. -/
inductive Utf8Reason where
  /-- A byte starts no character. -/
  | start
  /-- A character is not continued. -/
  | continuation
  /-- The end cuts a character off. -/
  | truncated
deriving DecidableEq, Repr

/-- The wording of a reason. -/
def Utf8Reason.text : Utf8Reason → String
  | .start => "invalid start byte"
  | .continuation => "invalid continuation byte"
  | .truncated => "unexpected end of data"

/-- The first fault of bytes that are no text. -/
structure Utf8Fault where
  /-- How many bytes stand in front of it. -/
  position : Nat
  /-- How many bytes it takes. -/
  length : Nat
  /-- Its first byte. -/
  byte : UInt8
  /-- What is wrong. -/
  reason : Utf8Reason
deriving DecidableEq, Repr

/-- A byte that continues a character. -/
def isContinuation (b : UInt8) : Bool := 0x80 ≤ b && b < 0xC0

/-- A byte that may be the second one of a character that starts with `a`. -/
def maySecond (a b : UInt8) : Bool :=
  isContinuation b && !(a == 0xE0 && b < 0xA0) && !(a == 0xED && 0xA0 ≤ b) &&
    !(a == 0xF0 && b < 0x90) && !(a == 0xF4 && 0x90 ≤ b)

/-- How many bytes a character has that starts with this one. -/
def expectedLength (a : UInt8) : Option Nat :=
  if a < 0x80 then some 1
  else if a < 0xC2 then none
  else if a < 0xE0 then some 2
  else if a < 0xF0 then some 3
  else if a < 0xF5 then some 4
  else none

/-- How many of the bytes behind the first one belong to its character, of `n` at most. -/
def continued (a : UInt8) (n : Nat) (rest : List UInt8) : Nat :=
  match n, rest with
  | n + 1, b :: rest =>
    if maySecond a b then 1 + ((rest.take n).takeWhile isContinuation).length else 0
  | _, _ => 0

/-- The code point of a character's bytes. -/
def codePoint (a : UInt8) (more : List UInt8) : Nat :=
  let first :=
    match more.length with
    | 0 => a.toNat
    | 1 => a.toNat % 0x20
    | 2 => a.toNat % 0x10
    | _ => a.toNat % 0x08
  more.foldl (fun n b => 64 * n + b.toNat % 64) first

/-- The first character of bytes and its length, or the length and reason of the fault there. -/
def firstChar (a : UInt8) (rest : List UInt8) : Except (Nat × Utf8Reason) (Char × Nat) :=
  match expectedLength a with
  | none => .error (1, .start)
  | some n =>
    -- so many of the bytes behind the first one go on with it
    let k := continued a (n - 1) rest
    if k + 1 = n then .ok (Char.ofNat (codePoint a (rest.take k)), n)
    else if k = rest.length then .error (k + 1, .truncated)
    else .error (k + 1, .continuation)

/-- The first fault from a position on, `skip` bytes being read already. -/
def faultFrom (position skip : Nat) : List UInt8 → Option Utf8Fault
  | [] => none
  | a :: rest =>
    match skip with
    | n + 1 => faultFrom (position + 1) n rest
    | 0 =>
      match firstChar a rest with
      | .ok (_, n) => faultFrom (position + 1) (n - 1) rest
      | .error (n, reason) => some ⟨position, n, a, reason⟩

/-- The characters of bytes, U+FFFD for every fault, `skip` bytes being read already. -/
def lossyFrom (skip : Nat) : List UInt8 → List Char
  | [] => []
  | a :: rest =>
    match skip with
    | n + 1 => lossyFrom n rest
    | 0 =>
      match firstChar a rest with
      | .ok (c, n) => c :: lossyFrom (n - 1) rest
      | .error (n, _) => '\uFFFD' :: lossyFrom (n - 1) rest

/-- The text of bytes, U+FFFD for every fault. -/
def decodeLossy (bytes : ByteArray) : List Char := lossyFrom 0 bytes.toList

/-- The text of bytes, or their first fault. -/
def decode (bytes : ByteArray) : Except Utf8Fault String :=
  match String.fromUTF8? bytes with
  | some s => .ok s
  | none => .error ((faultFrom 0 0 bytes.toList).getD ⟨0, 0, 0, .truncated⟩)

/-- The wording of a fault. -/
def Utf8Fault.message (f : Utf8Fault) : String :=
  let decimal (n : Nat) : String := String.ofList (Text.natDigits n)
  let place :=
    if f.length = 1 then
      "byte 0x" ++ String.ofList (Text.hexDigits 2 f.byte.toNat) ++ " in position " ++
        decimal f.position
    else "bytes in position " ++ decimal f.position ++ "-" ++ decimal (f.position + f.length - 1)
  "'utf-8' codec can't decode " ++ place ++ ": " ++ f.reason.text

/-- The text with one line break for every kind of line end. -/
def unifyLineEnds : List Char → List Char
  | [] => []
  | [c] => [if c = '\r' then '\n' else c]
  | c :: d :: s =>
    if c = '\r' ∧ d = '\n' then '\n' :: unifyLineEnds s
    else (if c = '\r' then '\n' else c) :: unifyLineEnds (d :: s)

/-- A character that ends a line. -/
def endsLine (c : Char) : Bool :=
  let n := c.toNat
  (10 ≤ n && n ≤ 13) || (28 ≤ n && n ≤ 30) || n == 0x85 || n == 0x2028 || n == 0x2029

/-- The lines of a text whose line ends are unified; what is empty behind the last end is none. -/
def lines : List Char → List (List Char)
  | [] => []
  | c :: s =>
    if endsLine c then [] :: lines s
    else
      match lines s with
      | [] => [[c]]
      | l :: ls => (c :: l) :: ls

end PayloadTypes.Files
