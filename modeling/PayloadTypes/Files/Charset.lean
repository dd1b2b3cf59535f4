import PayloadTypes.Files.Utf8
import PayloadTypes.Text.Case
import PayloadTypes.Text.CodePage
import PayloadTypes.Text.Surrogate
/-!
# Charsets

A charset says which characters bytes stand for. It goes by several names,
in which case and punctuation do not count. Bytes that stand for no
character are passed over; each fault becomes U+FFFD. Only where the order
of the bytes has to be told by a mark and is not, there is no text at all.
-/

namespace PayloadTypes.Files

/-- The order of the bytes of a number. -/
inductive ByteOrder where
  /-- The lowest byte comes first. -/
  | lowFirst
  /-- The highest byte comes first. -/
  | highFirst
deriving DecidableEq, Repr

/-- A charset. -/
inductive Charset where
  /-- UTF-8; `marked` where a mark at the front is left out. -/
  | utf8 (marked : Bool)
  /-- ASCII. -/
  | ascii
  /-- The first 256 code points. -/
  | latin1
  /-- A code page, by the code points of the bytes from 128 on. -/
  | page (upper : List Nat)
  /-- UTF-16, the order of bytes being told by a mark if it is not given. -/
  | utf16 (order : Option ByteOrder)
  /-- UTF-32, the order of bytes being told by a mark if it is not given. -/
  | utf32 (order : Option ByteOrder)
deriving DecidableEq, Repr

namespace Charset

/-- The charsets that are no code pages, with their names. -/
def named : List (List String × Charset) := [
  (["utf_8", "cp65001", "u8", "utf", "utf8", "utf8_ucs2", "utf8_ucs4"], .utf8 false),
  (["utf_8_sig"], .utf8 true),
  (["ascii", "646", "ansi_x3_4_1968", "ansi_x3_4_1986", "cp367", "csascii", "ibm367", "iso646_us",
    "iso_646_irv_1991", "iso_ir_6", "us", "us_ascii"], .ascii),
  (["latin_1", "8859", "cp819", "csisolatin1", "ibm819", "iso8859", "iso8859_1", "iso_8859_1",
    "iso_8859_1_1987", "iso_ir_100", "l1", "latin", "latin1"], .latin1),
  (["utf_16", "u16", "utf16"], .utf16 none),
  (["utf_16_le", "unicodelittleunmarked", "utf_16le"], .utf16 (some .lowFirst)),
  (["utf_16_be", "unicodebigunmarked", "utf_16be"], .utf16 (some .highFirst)),
  (["utf_32", "u32", "utf32"], .utf32 none),
  (["utf_32_le", "utf_32le"], .utf32 (some .lowFirst)),
  (["utf_32_be", "utf_32be"], .utf32 (some .highFirst))]

/-- The words of a name, cut wherever there is neither a letter nor a digit. -/
def nameWords : List Char → List (List Char)
  | [] => []
  | c :: s =>
    if !c.isAlphanum then nameWords s
    else
      match s with
      | [] => [[c]]
      | d :: _ =>
        match d.isAlphanum, nameWords s with
        | true, w :: ws => (c :: w) :: ws
        | _, ws => [c] :: ws

/-- A name with its words in lower case, joined by underscores. -/
def plainName (name : String) : String :=
  String.ofList (['_'].intercalate (nameWords (Text.lower name.toList)))

/-- The charset of a name. -/
def ofName? (name : String) : Option Charset :=
  let plain := plainName name
  ((named.find? fun c => c.1.contains plain).map Prod.snd).orElse fun _ =>
    (Text.codePages.find? fun p => p.names.contains plain).map fun p => .page p.upper

end Charset

/-- A character that stands for a fault. -/
def replacement : Char := '\uFFFD'

/-- The character of a code point, if it is one. -/
def charOr (n : Nat) : Char := if n.isValidChar then Char.ofNat n else replacement

/-- The number of a few bytes. -/
def ByteOrder.number (o : ByteOrder) (bytes : List UInt8) : Nat :=
  let high :=
    match o with
    | .lowFirst => bytes.reverse
    | .highFirst => bytes
  high.foldl (fun n b => 256 * n + b.toNat) 0

/-- The characters of units of two bytes. -/
def decodePairs (o : ByteOrder) : List UInt8 → List Char
  | [] => []
  | [_] => [replacement]
  | a :: b :: rest =>
    let u := o.number [a, b]
    -- the first half of a pair is lost without the second one behind it
    if Text.isHighSurrogate u then
      match rest with
      | c :: d :: more =>
        let v := o.number [c, d]
        if Text.isLowSurrogate v then Text.ofSurrogates u v :: decodePairs o more
        else replacement :: decodePairs o (c :: d :: more)
      | _ => [replacement]
    else charOr u :: decodePairs o rest

/-- The characters of units of four bytes. -/
def decodeFours (o : ByteOrder) : List UInt8 → List Char
  | a :: b :: c :: d :: rest => charOr (o.number [a, b, c, d]) :: decodeFours o rest
  | [] => []
  | _ => [replacement]

/-- The order that a mark of some length at the front tells, and what is left behind it. -/
def cutMark? (length : Nat) (bytes : List UInt8) : Option (ByteOrder × List UInt8) :=
  let front := bytes.take length
  if front.length < length then none
  else if ByteOrder.lowFirst.number front = 0xFEFF then some (.lowFirst, bytes.drop length)
  else if ByteOrder.highFirst.number front = 0xFEFF then some (.highFirst, bytes.drop length)
  else none

/-- The character of one byte, given those from 128 on. -/
def byteChar (upper : List Nat) (b : UInt8) : Char :=
  if b < 0x80 then Char.ofNat b.toNat else charOr (upper.getD (b.toNat - 0x80) 0xFFFD)

/-- The text of units that are as wide as their mark; nothing where the mark is missing. -/
def decodeMarked (width : Nat) (decodeUnits : ByteOrder → List UInt8 → List Char)
    (order : Option ByteOrder) (bytes : List UInt8) : Option (List Char) :=
  match order, cutMark? width bytes with
  | some o, _ => some (decodeUnits o bytes)
  | none, some (o, rest) => some (decodeUnits o rest)
  | none, none => if bytes.length < width then some (decodeUnits .lowFirst bytes) else none

/-- The text of bytes; nothing where their order is not told. -/
def Charset.decode? (c : Charset) (bytes : List UInt8) : Option (List Char) :=
  match c with
  | .utf8 marked =>
    let isMarked := marked && bytes.take 3 == [0xEF, 0xBB, 0xBF]
    some (lossyFrom (if isMarked then 3 else 0) bytes)
  | .ascii => some (bytes.map (byteChar []))
  | .latin1 => some (bytes.map fun b => Char.ofNat b.toNat)
  | .page upper => some (bytes.map (byteChar upper))
  | .utf16 order => decodeMarked 2 decodePairs order bytes
  | .utf32 order => decodeMarked 4 decodeFours order bytes

end PayloadTypes.Files
