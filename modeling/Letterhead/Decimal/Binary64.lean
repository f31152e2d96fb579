/-!
# Binary floating-point numbers

A number of the 64-bit binary format, given by what it is worth: a sign, a significand below 2^53
and a power of two from 2^-1074 to 2^971. Every decimal has a nearest such number; of two that are
equally near, the one with the even significand is taken.

## Main definitions

* `powerOfTwo`, `powerOfTen` — powers of the two bases
* `Binary64` — the numbers, with the infinities and a value for no number
* `Binary64.ofDecimal` — the number nearest to a decimal
* `Binary64.isIntegral`, `Binary64.isNegative` — whole numbers, and numbers below zero
-/

namespace Letterhead

/-- A power of two. -/
def powerOfTwo (exponent : Nat) : Nat := Nat.pow 2 exponent

/-- A power of ten. -/
def powerOfTen (exponent : Nat) : Nat := Nat.pow 10 exponent

/-- A number of the 64-bit binary format. -/
inductive Binary64
  | nan
  | infinity (negative : Bool)
  /-- The number `significand * 2 ^ exponent`, or its negative. -/
  | finite (negative : Bool) (significand : Nat) (exponent : Int)
  deriving DecidableEq, Repr

namespace Binary64

/-- The least power of two in use. -/
def minExponent : Int := -1074

/-- The greatest power of two in use. -/
def maxExponent : Int := 971

/-- Zero, which has a sign. -/
def zero (negative : Bool) : Binary64 := finite negative 0 minExponent

/-- The whole number nearest to a quotient, a half going to the even neighbour. -/
def divideToEven (numerator denominator : Nat) : Nat :=
  let quotient := numerator / denominator
  let twice := 2 * (numerator % denominator)
  if denominator < twice ∨ (twice = denominator ∧ quotient % 2 = 1) then quotient + 1 else quotient

/-- The greatest power of two that is not above a quotient, by its exponent. -/
def binaryExponent (numerator denominator : Nat) : Int :=
  let guess : Int := numerator.log2 - denominator.log2
  let fits :=
    if 0 ≤ guess then denominator * powerOfTwo guess.toNat ≤ numerator
    else denominator ≤ numerator * powerOfTwo (-guess).toNat
  if fits then guess else guess - 1

/-- The number nearest to a quotient that is not zero. -/
def ofQuotient (negative : Bool) (numerator denominator : Nat) : Binary64 :=
  let exponent := max minExponent (binaryExponent numerator denominator - 52)
  let significand :=
    if 0 ≤ exponent then divideToEven numerator (denominator * powerOfTwo exponent.toNat)
    else divideToEven (numerator * powerOfTwo (-exponent).toNat) denominator
  -- Rounding up may have filled all 53 bits and one more.
  let (significand, exponent) :=
    if significand = powerOfTwo 53 then (powerOfTwo 52, exponent + 1) else (significand, exponent)
  if maxExponent < exponent then infinity negative else finite negative significand exponent

/-- The number nearest to `digits * 10 ^ scale`, or to its negative. Decimals far out of range are
told by their length, so that no power of ten is computed for them. -/
def ofDecimal (negative : Bool) (digits : Nat) (scale : Int) : Binary64 :=
  let magnitude : Int := (Nat.toDigits 10 digits).length + scale
  if digits = 0 ∨ magnitude < -400 then zero negative
  else if 400 < magnitude then infinity negative
  else if 0 ≤ scale then ofQuotient negative (digits * powerOfTen scale.toNat) 1
  else ofQuotient negative digits (powerOfTen (-scale).toNat)

/-- Whether a number is finite and whole. -/
def isIntegral : Binary64 → Bool
  | finite _ significand exponent =>
    0 ≤ exponent || significand % powerOfTwo (-exponent).toNat == 0
  | _ => false

/-- Whether a number is below zero. -/
def isNegative : Binary64 → Bool
  | finite negative significand _ => negative && significand != 0
  | infinity negative => negative
  | nan => false

end Binary64

end Letterhead
