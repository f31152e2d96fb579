import Letterhead.Decimal.Binary64

/-!
# Shortest decimals

A binary number is written with the fewest digits that lead back to it; of several such decimals the
nearest is taken. Then the digits are laid out: with a point among them when the number is neither
very large nor very small, and with a power of ten otherwise.

## Main definitions

* `Shortest.digits` — the fewest digits of a number, with their power of ten
* `Layout`, `Layout.write` — how a number is laid out
-/

namespace Letterhead

namespace Shortest

/-- The positive numbers that round to a binary number, over a common denominator: the number itself
and the ends of the interval, which count when `closed` holds. -/
structure Interval where
  low : Nat
  value : Nat
  high : Nat
  denominator : Nat
  closed : Bool

/-- The interval of a positive number. Below a power of two the spacing is half as wide. -/
def interval (significand : Nat) (exponent : Int) : Interval :=
  let low :=
    if significand = powerOfTwo 52 ∧ Binary64.minExponent < exponent then 4 * significand - 1
    else 4 * significand - 2
  let factor := powerOfTwo (exponent - 2).toNat
  { low := low * factor
    value := 4 * significand * factor
    high := (4 * significand + 2) * factor
    denominator := powerOfTwo (2 - exponent).toNat
    closed := significand % 2 == 0 }

/-- Whether a fraction lies in the interval. -/
def Interval.contains (i : Interval) (numerator : Nat) (scaleUp scaleDown : Nat) : Bool :=
  let point := numerator * scaleUp * i.denominator
  let low := i.low * scaleDown
  let high := i.high * scaleDown
  if i.closed then low ≤ point && point ≤ high else low < point && point < high

/-- The number of digits before the point of a positive fraction; less than one for one below 1/10.
-/
def pointPlace (numerator denominator : Nat) : Int :=
  if denominator ≤ numerator then (Nat.toDigits 10 (numerator / denominator)).length
  else
    let inverse := (denominator + numerator - 1) / numerator
    1 - ((Nat.toDigits 10 (inverse - 1)).length : Int)

/-- The neighbour of the number on the grid of multiples of `10 ^ scale`, if one of the two leads
back to the number; of two that do, the nearer. -/
def onGrid? (i : Interval) (scale : Int) : Option Nat :=
  let scaleUp := powerOfTen scale.toNat
  let scaleDown := powerOfTen (-scale).toNat
  -- The two neighbours of the number on the grid are `below` and `below + 1` units.
  let unit := i.denominator * scaleUp
  let below := i.value * scaleDown / unit
  let rest := i.value * scaleDown % unit
  match i.contains below scaleUp scaleDown, i.contains (below + 1) scaleUp scaleDown with
  | true, true =>
    some (if 2 * rest < unit ∨ (2 * rest = unit ∧ below % 2 = 0) then below else below + 1)
  | true, false => some below
  | false, true => some (below + 1)
  | false, false => none

/-- The first hit among grids of growing fineness. Seventeen digits always hit. -/
def search (i : Interval) (place : Int) : Nat → Nat → Nat × Int
  | 0, count => (i.value / i.denominator, place - count)
  | tries + 1, count =>
    match onGrid? i (place - count) with
    | some found => (found, place - count)
    | none => search i place tries (count + 1)

/-- The fewest digits that lead back to a positive number, as a whole number and a power of ten. -/
def digits (significand : Nat) (exponent : Int) : Nat × Int :=
  let i := interval significand exponent
  search i (pointPlace i.value i.denominator) 17 1

end Shortest

/-- How a number is laid out. -/
structure Layout where
  /-- The least power of ten whose numbers are written without one. -/
  leastPower : Int := -4
  /-- The first power of ten whose numbers are written with one. -/
  firstPower : Int := 16
  /-- The least number of digits of a power. -/
  powerDigits : Nat := 2
  /-- What stands for no number. -/
  nan : String
  /-- What stands for infinity, after a sign if it is negative. -/
  infinity : String

namespace Layout

/-- A power of ten with its sign. -/
def writePower (layout : Layout) (power : Int) : List Char :=
  let shown := Nat.toDigits 10 power.natAbs
  (if power < 0 then '-' else '+') ::
    List.replicate (layout.powerDigits - shown.length) '0' ++ shown

/-- Digits laid out so that the point stands after `place` of them. -/
def writeDigits (layout : Layout) (shown : List Char) (place : Int) : List Char :=
  if layout.leastPower < place ∧ place ≤ layout.firstPower then
    if place ≤ 0 then ['0', '.'] ++ List.replicate (-place).toNat '0' ++ shown
    else
      let whole := place.toNat
      let fraction := shown.drop whole
      shown.take whole ++ List.replicate (whole - shown.length) '0' ++
        '.' :: (if fraction.isEmpty then ['0'] else fraction)
  else
    let fraction := shown.drop 1
    shown.take 1 ++ (if fraction.isEmpty then [] else '.' :: fraction) ++
      'e' :: layout.writePower (place - 1)

/-- The digits of a number without the zeros at their end. -/
def significantDigits (n : Nat) : List Char :=
  ((Nat.toDigits 10 n).reverse.dropWhile (· == '0')).reverse

/-- A number as text. -/
def write (layout : Layout) : Binary64 → String
  | .nan => layout.nan
  | .infinity negative => if negative then "-" ++ layout.infinity else layout.infinity
  | .finite negative significand exponent =>
    let body :=
      if significand = 0 then ['0', '.', '0']
      else
        let (number, scale) := Shortest.digits significand exponent
        let place : Int := (Nat.toDigits 10 number).length + scale
        layout.writeDigits (significantDigits number) place
    String.ofList (if negative then '-' :: body else body)

end Layout

end Letterhead
