import PayloadTypes.Data.Moment
import PayloadTypes.Data.ReadFault
import PayloadTypes.Decimal.Binary
import PayloadTypes.Text.Quoted
/-!
# Values

The values that a data text holds: nothing, truth values, numbers,
moments, texts, lists and maps. Maps keep the order of their keys; numbers and truth values
that are equal as numbers are one key, and so is what is no number.
-/

namespace PayloadTypes

/-- A value read from a data text. -/
inductive Value where
  /-- No value. -/
  | null
  /-- A truth value. -/
  | bool (b : Bool)
  /-- An integer of any size. -/
  | int (i : Int)
  /-- A floating point number. -/
  | float (x : Float)
  /-- A day or a time. -/
  | moment (m : Moment)
  /-- A text. -/
  | text (s : String)
  /-- A list. -/
  | list (items : List Value)
  /-- A map, its entries in order. -/
  | map (entries : List (Value × Value))
deriving Inhabited

namespace Value

/-- The integer that a value is equal to, truth values counting as 0 and 1. -/
def number? : Value → Option Int
  | .bool b => some (if b then 1 else 0)
  | .int i => some i
  | .float x => Decimal.toInt? x
  | _ => none

/-- The two values are one key of a map. -/
def sameKey (a b : Value) : Bool :=
  match a, b with
  | .null, .null => true
  | .text s, .text t => s == t
  | .moment m, .moment n => m == n
  -- a number that is none is the same key as itself, although it is not equal to itself
  | .float x, .float y => x == y || (x.isNaN && y.isNaN)
  | a, b =>
    match a.number?, b.number? with
    | some i, some j => i == j
    | _, _ => false

/-- The entries with `a` under `k`, which keeps the place of an equal key. -/
def put {α : Type} (k : Value) (a : α) : List (Value × α) → List (Value × α)
  | [] => [(k, a)]
  | e :: es => if e.1.sameKey k then (e.1, a) :: es else e :: put k a es

/-- The entries of a map made of a list of entries; of two under one key the later wins. -/
def ofEntries {α : Type} (es : List (Value × α)) : List (Value × α) :=
  es.foldl (fun m e => put e.1 e.2 m) []

/-- The value under a name. -/
def get? (k : String) (es : List (Value × Value)) : Option Value :=
  (es.find? fun e => e.1.sameKey (.text k)).map Prod.snd

/-- A value that counts as there: not nothing, false, zero or empty. -/
def isTruthy : Value → Bool
  | .null => false
  | .bool b => b
  | .int i => i != 0
  | .float x => x != 0.0
  | .moment _ => true
  | .text s => s != ""
  | .list items => !items.isEmpty
  | .map entries => !entries.isEmpty

mutual
/-- A value as it is shown inside another one. -/
def shown : Value → List Char
  | .null => "None".toList
  | .bool b => (if b then "True" else "False").toList
  | .int i => Text.intDigits i
  | .float x => Decimal.floatText x
  | .moment m => m.shown
  | .text s => Text.quote s.toList
  | .list items => '[' :: shownItems items ++ [']']
  | .map entries => '\x7b' :: shownEntries entries ++ ['\x7d']
/-- The items of a list, with commas between them. -/
def shownItems : List Value → List Char
  | [] => []
  | [v] => shown v
  | v :: w :: vs => shown v ++ ',' :: ' ' :: shownItems (w :: vs)
/-- The entries of a map, with commas between them. -/
def shownEntries : List (Value × Value) → List Char
  | [] => []
  | [(k, v)] => shown k ++ ':' :: ' ' :: shown v
  | (k, v) :: e :: es => shown k ++ ':' :: ' ' :: shown v ++ ',' :: ' ' :: shownEntries (e :: es)
end

mutual
/-- A value that can be shown: no integer in it has more digits than are written. -/
def isShowable : Value → Bool
  | .int i => isWritableInteger i
  | .list items => areShowable items
  | .map entries => entriesShowable entries
  | _ => true
/-- All items can be shown. -/
def areShowable : List Value → Bool
  | [] => true
  | v :: vs => isShowable v && areShowable vs
/-- All keys and values can be shown. -/
def entriesShowable : List (Value × Value) → Bool
  | [] => true
  | (k, v) :: es => isShowable k && isShowable v && entriesShowable es
end

/-- A value on its own: a text as it is, a moment by its own text, all else as it is shown inside
another value. -/
def plain : Value → List Char
  | .text s => s.toList
  | .moment m => m.text
  | v => v.shown

/-- The word for the kind of a value. -/
def kind : Value → String
  | .null => "NoneType"
  | .bool _ => "bool"
  | .int _ => "int"
  | .float _ => "float"
  | .moment m => m.kind
  | .text _ => "str"
  | .list _ => "list"
  | .map _ => "dict"

end Value

end PayloadTypes
