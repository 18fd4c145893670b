import Script.Number.Binary64

/-!
# Reading numerals

Integers are a sign and digits and must fit their type.  Doubles may also have
a point and an exponent, or be one of the names of infinity and not-a-number.
-/

namespace Script.Numeral

def isDigit (c : Char) : Bool := '0' ≤ c && c ≤ '9'

def digitValue (c : Char) : Nat := c.toNat - '0'.toNat

/-- The number that the digits stand for, read after the number `before`. -/
def valueFrom (before : Nat) (digits : List Char) : Nat :=
  digits.foldl (fun value c => 10 * value + digitValue c) before

/-- One or more digits. -/
def digits? (text : List Char) : Option Nat :=
  if !text.isEmpty && text.all isDigit then some (valueFrom 0 text) else none

/-- A sign, and what it stands in front of. -/
def splitSign : List Char → Bool × List Char
  | '+' :: rest => (false, rest)
  | '-' :: rest => (true, rest)
  | text => (false, text)

/-- A signed integer of 64 bits. -/
def int64? (text : List Char) : Option Int64 :=
  let (negative, rest) := splitSign text
  (digits? rest).bind fun n =>
    if negative then
      if n ≤ twoTo 63 then some (Int64.ofInt (-n)) else none
    else if n < twoTo 63 then some (Int64.ofNat n) else none

/-- An unsigned integer of 64 bits; a plus sign may stand in front. -/
def word64? (text : List Char) : Option Nat :=
  let rest := match text with
    | '+' :: rest => rest
    | _ => text
  (digits? rest).filter (· < twoTo 64)

/-- The number from which on the digits of an exponent are passed over. -/
def exponentLimit : Nat := 65536

/-- The number that the digits of an exponent stand for.  Digits behind the one
that takes it to the limit do not count. -/
def exponentValue (digits : List Char) : Nat :=
  digits.foldl (fun value c =>
    if value < exponentLimit then 10 * value + digitValue c else value) 0

/-- The exponent part of a decimal, which may be missing. -/
def exponent? : List Char → Option Int
  | [] => some 0
  | c :: rest =>
    if c = 'e' ∨ c = 'E' then
      let (negative, digits) := splitSign rest
      if digits.isEmpty || !digits.all isDigit then none
      else if negative then some (-(exponentValue digits : Int))
      else some (exponentValue digits)
    else
      none

/-- Digits with at most one point, at least one digit in all, and an
exponent. -/
def decimal? (negative : Bool) (text : List Char) : Option Float :=
  let whole := text.takeWhile isDigit
  let rest := text.dropWhile isDigit
  let (fraction, rest) := match rest with
    | '.' :: rest => (rest.takeWhile isDigit, rest.dropWhile isDigit)
    | _ => ([], rest)
  if whole.isEmpty && fraction.isEmpty then none
  else (exponent? rest).map fun exponent =>
    Binary64.ofDecimal negative (valueFrom (valueFrom 0 whole) fraction)
      (exponent - fraction.length)

def lowerAscii (c : Char) : Char :=
  if 'A' ≤ c ∧ c ≤ 'Z' then Char.ofNat (c.toNat + 32) else c

/-- A double.  The names of infinity and not-a-number are read in any case. -/
def float? (text : List Char) : Option Float :=
  let (negative, rest) := splitSign text
  let name := String.ofList (rest.map lowerAscii)
  if name = "inf" ∨ name = "infinity" then
    some (if negative then -1.0 / 0.0 else 1.0 / 0.0)
  else if name = "nan" then
    some (0.0 / 0.0)
  else
    decimal? negative rest

end Script.Numeral
