import Script.Number.Power

/-!
# Double-precision numbers as exact fractions

A finite double is an integer times a power of two.  This module takes doubles
apart, rounds exact fractions to the nearest double, and computes remainders
without rounding.
-/

namespace Script.Binary64

/-- What a double stands for.  A finite one is
`significand * 2 ^ exponent`, with a sign. -/
inductive Decoded where
  | finite (negative : Bool) (significand : Nat) (exponent : Int)
  | infinite (negative : Bool)
  | nan
  deriving DecidableEq, Repr

def decode (x : Float) : Decoded :=
  let bits := x.toBits.toNat
  let negative := decide (twoTo 63 ≤ bits)
  let biased : Nat := bits / twoTo 52 % twoTo 11
  let fraction : Nat := bits % twoTo 52
  if biased = 2047 then
    if fraction = 0 then .infinite negative else .nan
  else if biased = 0 then
    .finite negative fraction (-1074)
  else
    .finite negative (fraction + twoTo 52) ((biased : Int) - 1075)

def isFinite (x : Float) : Bool :=
  match decode x with
  | .finite .. => true
  | _ => false

/-! ### Rounding fractions -/

/-- The integer nearest to `num / den`; a half goes to the even neighbour. -/
def roundDiv (num den : Nat) : Nat :=
  let quotient := num / den
  let twice := 2 * (num % den)
  if twice < den ∨ (twice = den ∧ quotient % 2 = 0) then quotient
  else quotient + 1

/-- Numerator and denominator of `num / (den * 2 ^ exponent)`. -/
def unscale (num den : Nat) (exponent : Int) : Nat × Nat :=
  (num * twoTo (-exponent).toNat, den * twoTo exponent.toNat)

/-- The exponent of the last place of the double next to `num / den`: the
quotient has 53 binary digits in front of that place, unless it is too small. -/
def lastPlace (num den : Nat) : Int :=
  let guess : Int := (Nat.log2 num : Int) - (Nat.log2 den : Int) - 52
  let (n, d) := unscale num den guess
  max (if n / d < twoTo 52 then guess - 1 else guess) (-1074)

/-- The double nearest to `num / den`.  A tie goes to the even significand, and
what is too large becomes infinite. -/
def nearest (negative : Bool) (num den : Nat) : Float :=
  let exponent := lastPlace num den
  let (n, d) := unscale num den exponent
  let magnitude :=
    if num = 0 then 0
    else min ((exponent + 1074).toNat * twoTo 52 + roundDiv n d)
        (2047 * twoTo 52)
  Float.ofBits
    (UInt64.ofNat (if negative then twoTo 63 + magnitude else magnitude))

/-! ### Decimals -/

/-- The double nearest to `digits * 10 ^ exponent`.  Exponents far outside the
range of doubles are settled without computing the power. -/
def ofDecimal (negative : Bool) (digits : Nat) (exponent : Int) : Float :=
  if digits = 0 then nearest negative 0 1
  else if 400 < exponent then nearest negative (twoTo 1024) 1
  else if exponent < -400 - (Nat.log2 digits : Int) then nearest negative 0 1
  else
    nearest negative (digits * tenTo exponent.toNat)
      (tenTo (-exponent).toNat)

/-! ### Remainders -/

/-- The remainder of the division of `x` by `y` that truncates toward zero.  It
is exact, has the sign of `x`, and is not a number if `x` is infinite. -/
def remainder (x y : Float) : Float :=
  match decode x, decode y with
  | .finite negative m e, .finite _ n f =>
    let unit := min e f
    let left := m * twoTo (e - unit).toNat
    let right := n * twoTo (f - unit).toNat
    nearest negative (left % right * twoTo unit.toNat)
      (twoTo (-unit).toNat)
  | .finite .., .infinite _ => x
  | _, _ => 0.0 / 0.0

/-! ### Integers -/

/-- The integer next to a number, cut off on either side at the ends of the
64-bit integers. -/
def saturate (n : Int) : Int64 :=
  Int64.ofInt (max (-9223372036854775808) (min n 9223372036854775807))

/-- `num / 2 ^ (-exponent)`, rounded by `round`. -/
def roundWith (round : Int → Int → Int) (num exponent : Int) : Int :=
  if 0 ≤ exponent then num * twoTo exponent.toNat
  else round num (twoTo (-exponent).toNat)

/-- A double as an integer: a fraction is rounded by `round`, what is too large
becomes the largest or smallest integer, and what is no number becomes zero. -/
def toInt64 (round : Int → Int → Int) (x : Float) : Int64 :=
  match decode x with
  | .finite negative significand exponent =>
    let num : Int := if negative then -significand else significand
    saturate (roundWith round num exponent)
  | .infinite negative => if negative then Int64.minValue else Int64.maxValue
  | .nan => 0

/-- Cuts the fraction off. -/
def truncate (x : Float) : Int64 := toInt64 Int.tdiv x

/-- Rounds down. -/
def floor (x : Float) : Int64 := toInt64 Int.fdiv x

/-- Rounds up. -/
def ceil (x : Float) : Int64 := toInt64 (fun num den => -(-num).fdiv den) x

end Script.Binary64
