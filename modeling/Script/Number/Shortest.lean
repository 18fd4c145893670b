import Script.Number.Binary64

/-!
# The shortest decimal of a double

Many decimals are nearer to a given double than to any other.  Of those, the
shortest is a multiple of the largest possible power of ten; if there are two,
the one nearer to the double is taken, and the upper one if both are equally
near.  It is written in positional notation, without an exponent.
-/

namespace Script

/-- The number `digits * 10 ^ exponent`. -/
structure Decimal where
  digits : Nat
  exponent : Int
  deriving DecidableEq, Repr

namespace Decimal

/-- Positional notation. -/
def positional (d : Decimal) : String :=
  let digits := toString d.digits
  if 0 ≤ d.exponent then
    digits ++ String.ofList (List.replicate d.exponent.toNat '0')
  else
    let places := (-d.exponent).toNat
    if places < digits.length then
      let whole := digits.length - places
      String.ofList (digits.toList.take whole) ++ "." ++
        String.ofList (digits.toList.drop whole)
    else
      "0." ++ String.ofList (List.replicate (places - digits.length) '0') ++
        digits

/-- A multiple of `10 ^ power` that lies between `low` and `high`, where these
and `value` count quarters of `2 ^ exponent`; the ends belong to the interval if
`closed` says so.  Only the two multiples next to `value` are tried. -/
def gridPoint? (low value high : Nat) (closed : Bool) (exponent power : Int) :
    Option Decimal :=
  let num := twoTo (exponent - 2).toNat * tenTo (-power).toNat
  let den := twoTo (2 - exponent).toNat * tenTo power.toNat
  let below := value * num / den
  let reads (point : Nat) : Bool :=
    if closed then low * num ≤ point * den && point * den ≤ high * num
    else low * num < point * den && point * den < high * num
  let nearUpper := decide (den ≤ 2 * (value * num % den))
  if reads below && !(reads (below + 1) && nearUpper) then
    some ⟨below, power⟩
  else if reads (below + 1) then
    some ⟨below + 1, power⟩
  else
    none

/-- The shortest decimal that reads back as `significand * 2 ^ exponent`. -/
def shortest (significand : Nat) (exponent : Int) : Decimal :=
  let low :=
    if significand = twoTo 52 ∧ -1074 < exponent then 4 * significand - 1
    else 4 * significand - 2
  let start := ((Nat.log2 significand : Int) + exponent + 1) * 30103 / 100000 + 1
  let onGrid? (step : Nat) : Option Decimal :=
    gridPoint? low (4 * significand) (4 * significand + 2)
      (significand % 2 = 0) exponent (start - step)
  ((List.range 24).findSome? onGrid?).getD
    ⟨significand * twoTo exponent.toNat * Nat.pow 5 (-exponent).toNat,
      min exponent 0⟩

end Decimal

namespace Binary64

/-- The text of a double in the fewest digits. -/
def plainText (x : Float) : String :=
  match decode x with
  | .nan => "NaN"
  | .infinite negative => if negative then "-inf" else "inf"
  | .finite negative significand exponent =>
    let magnitude :=
      if significand = 0 then "0"
      else (Decimal.shortest significand exponent).positional
    if negative then "-" ++ magnitude else magnitude

/-- The whole number that `significand * 2 ^ exponent` is, if it is one. -/
def whole? (significand : Nat) (exponent : Int) : Option Nat :=
  let den := twoTo (-exponent).toNat
  if significand % den = 0 then some (significand * twoTo exponent.toNat / den)
  else none

/-- The text of a double in programs: whole numbers below `10 ^ 16` show one
decimal place. -/
def text (x : Float) : String :=
  match decode x with
  | .finite negative significand exponent =>
    match whole? significand exponent with
    | some n =>
      if n < tenTo 16 then
        (if negative then "-" else "") ++ toString n ++ ".0"
      else
        plainText x
    | none => plainText x
  | _ => plainText x

end Binary64

end Script
