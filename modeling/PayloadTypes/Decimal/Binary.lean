import PayloadTypes.Decimal.Shortest
/-!
# Binary floating point numbers as text

`parts` takes a number apart into its sign and `m · 2 ^ q`. The written
form is the shortest decimal: positional while the point stands from four
places before the digits to sixteen behind their front, with an exponent of
two digits or more otherwise, and always with a point or an exponent.
-/

namespace PayloadTypes.Decimal

/-- A floating point number taken apart. -/
inductive Parts where
  /-- Not a number. -/
  | nan
  /-- An infinity. -/
  | infinite (negative : Bool)
  /-- The number `± m · 2 ^ q`, and whether the gap below it is the smaller one. -/
  | finite (negative : Bool) (m : Nat) (q : Int) (narrow : Bool)
deriving Repr, DecidableEq

/-- Sign, significand and exponent of a number. -/
def parts (x : Float) : Parts :=
  let bits : Nat := x.toBits.toNat
  let negative : Bool := bits.testBit 63
  let e : Nat := bits / twoTo 52 % twoTo 11
  let f : Nat := bits % twoTo 52
  if e = 2047 then (if f = 0 then .infinite negative else .nan)
  -- below the smallest exponent the leading bit is not implied
  else if e = 0 then .finite negative f (-1074) false
  else .finite negative (twoTo 52 + f) ((e : Int) - 1075) (f == 0 && 1 < e)

/-- How a decimal is written out. -/
structure Style where
  /-- The point may stand this many places before the digits. -/
  lowest : Int
  /-- The point may stand this many places behind the front of the digits. -/
  highest : Int
  /-- The least number of digits of an exponent. -/
  exponentDigits : Nat

/-- Positional from `0.0001` up to sixteen digits before the point. -/
def standard : Style := ⟨-3, 16, 2⟩

/-- The sign and digits of an exponent. -/
def Style.exponent (st : Style) (e : Int) : List Char :=
  let ds := Text.natDigits e.natAbs
  (if e < 0 then '-' else '+') :: List.replicate (st.exponentDigits - ds.length) '0' ++ ds

/-- A decimal in a style. -/
def Style.render (st : Style) (d : Digits) : List Char :=
  let ds := d.significant
  if d.point < st.lowest ∨ st.highest < d.point then
    let tail := 'e' :: st.exponent (d.point - 1)
    match ds with
    | [] => tail
    | [c] => c :: tail
    | c :: cs => c :: '.' :: cs ++ tail
  else if d.point ≤ 0 then '0' :: '.' :: List.replicate (-d.point).toNat '0' ++ ds
  else
    let k := d.point.toNat
    let whole := ds.take k ++ List.replicate (k - ds.length) '0'
    match ds.drop k with
    | [] => whole ++ ['.', '0']
    | cs => whole ++ '.' :: cs

/-- The text of a floating point number. -/
def floatText (x : Float) : List Char :=
  match parts x with
  | .nan => "nan".toList
  | .infinite negative => (if negative then "-inf" else "inf").toList
  | .finite negative m q narrow =>
    let body := if m = 0 then "0.0".toList else standard.render (shortest m q narrow)
    if negative then '-' :: body else body

/-- The integer that a floating point number is, if it is one. -/
def toInt? (x : Float) : Option Int :=
  match parts x with
  | .finite negative m q _ =>
    let den := twoTo (-q).toNat
    if m % den = 0 then
      let n := m / den * twoTo q.toNat
      some (if negative then -(n : Int) else n)
    else none
  | _ => none

/-- The number `m · 10 ^ e`, rounded. -/
def ofDecimal (negative : Bool) (m : Nat) (e : Int) : Float :=
  let size := (width m : Int) + e
  let x : Float :=
    -- out of this range the number is rounded to zero or is infinite
    if m = 0 ∨ size < -400 then 0.0
    else if 400 < size then 1.0 / 0.0
    else if e < 0 then Float.ofScientific m true e.natAbs
    else Float.ofScientific m false e.natAbs
  if negative then -x else x

end PayloadTypes.Decimal
