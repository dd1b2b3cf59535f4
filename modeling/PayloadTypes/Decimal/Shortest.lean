import PayloadTypes.Text.Digit
/-!
# Shortest decimals

A binary floating point number is `m · 2 ^ q`. The reals that round to it
form an interval around it, whose ends belong to it when `m` is even. Its
shortest decimal is the decimal of fewest digits in that interval, and the
nearest to the number among those of that many digits.

All arithmetic is exact, on natural numbers.
-/

namespace PayloadTypes.Decimal

/-- A positive decimal `0.d₁d₂… · 10 ^ point`, the digits as one number. -/
structure Digits where
  /-- The digits, read as a number. -/
  digits : Nat
  /-- How many places the point stands to the right of the front. -/
  point : Int
deriving Repr, DecidableEq

/-- The number of decimal digits. -/
def width (n : Nat) : Nat := (Nat.toDigits 10 n).length

/-- A fraction and the interval that rounds to it, over one denominator. -/
structure Interval where
  /-- Numerator of the lower end. -/
  low : Nat
  /-- Numerator of the number itself. -/
  mid : Nat
  /-- Numerator of the upper end. -/
  high : Nat
  /-- The denominator. -/
  den : Nat
  /-- The ends belong to the interval. -/
  closed : Bool

/-- A power of two. -/
def twoTo (n : Nat) : Nat := Nat.pow 2 n

/-- A power of ten. -/
def tenTo (n : Nat) : Nat := Nat.pow 10 n

/-- The interval that rounds to `m · 2 ^ q`; `narrow` when the next number
below is only half as far away as the next one above. -/
def interval (m : Nat) (q : Int) (narrow : Bool) : Interval :=
  let unit := twoTo q.toNat
  let mid := 4 * m * unit
  { low := mid - (if narrow then unit else 2 * unit), mid, high := mid + 2 * unit
    den := 4 * twoTo (-q).toNat, closed := m % 2 = 0 }

/-- The decimal `d · 10 ^ g` lies in the interval. -/
def Interval.holds (i : Interval) (d : Nat) (g : Int) : Bool :=
  let x := d * tenTo g.toNat * i.den
  let scale := tenTo (-g).toNat
  if i.closed then i.low * scale ≤ x && x ≤ i.high * scale
  else i.low * scale < x && x < i.high * scale

/-- Where the point of the number stands: `10 ^ (point - 1) ≤ mid / den < 10 ^ point`. -/
def Interval.point (i : Interval) : Int :=
  let e : Int := (width i.mid : Int) - (width i.den : Int)
  if i.den * tenTo e.toNat ≤ i.mid * tenTo (-e).toNat then e + 1 else e

/-- The decimal of `n` digits nearest to the number, if one lies in the interval. -/
def Interval.grid? (i : Interval) (n : Nat) : Option Digits :=
  let g : Int := i.point - n
  let num := i.mid * tenTo (-g).toNat
  let den := i.den * tenTo g.toNat
  let d := num / den
  let below := i.holds d g
  let above := i.holds (d + 1) g
  let rest := 2 * (num % den)
  -- where both neighbours lie in the interval the nearer one is taken, and of two as near the even
  -- one
  let pick : Nat → Digits := fun k => ⟨k, g + width k⟩
  match below, above with
  | false, false => none
  | true, false => some (pick d)
  | false, true => some (pick (d + 1))
  | true, true =>
    if rest < den ∨ (rest = den ∧ d % 2 = 0) then some (pick d) else some (pick (d + 1))

/-- The shortest decimal of `m · 2 ^ q`; seventeen digits always suffice. -/
def shortest (m : Nat) (q : Int) (narrow : Bool) : Digits :=
  let i := interval m q narrow
  match (List.range 17).findSome? fun n => i.grid? (n + 1) with
  | some d => d
  | none => ⟨0, 0⟩

/-- The digits without the zeros at their end. -/
def Digits.significant (d : Digits) : List Char :=
  match Text.dropEndWhile (· == '0') (Text.natDigits d.digits) with
  | [] => ['0']
  | cs => cs

end PayloadTypes.Decimal
