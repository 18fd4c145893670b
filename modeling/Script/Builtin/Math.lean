import Script.Builtin.Argument
import Script.Number.Binary64
import Script.Value.Operator

/-!
# The functions of the module `math`
-/

namespace Script.Builtin

def replyAbs (h : Heap) : List Value → Reply
  | [.int n] => reply (.int (if n < 0 then -n else n))
  | [v] => do reply (.float (← numberArg h .abs 1 v).abs)
  | args => wrongCount .abs (.exactly 1) args

def replySqrt (h : Heap) : List Value → Reply
  | [v] => do reply (.float (← numberArg h .sqrt 1 v).sqrt)
  | args => wrongCount .sqrt (.exactly 1) args

/-- The exact power of a number, if it is one of the integers that programs have.
A base of at least two needs no exponent above 63. -/
def exactPower? (base : Int) (exponent : Nat) : Option Int :=
  let bounded :=
    if -1 ≤ base ∧ base ≤ 1 then exponent % 2 + (if exponent = 0 then 0 else 2)
    else exponent
  if 64 ≤ bounded then none
  else
    let power := Int.pow base bounded
    if Operator.fits power then some power else none

/-- The integer power with an exponent of at most 32 bits, if there is one. -/
def integerPower? (base exponent : Int64) : Option Int64 :=
  let e := exponent.toInt
  if 0 ≤ e ∧ e < twoTo 32 then (exactPower? base.toInt e.toNat).map Int64.ofInt
  else none

def floatPower (h : Heap) (base exponent : Value) : Reply := do
  let base ← numberArg h .pow 1 base
  let exponent ← numberArg h .pow 2 exponent
  reply (.float (Float.pow base exponent))

def replyPow (h : Heap) : List Value → Reply
  | [.int base, .int exponent] =>
    match integerPower? base exponent with
    | some power => reply (.int power)
    | none => floatPower h (.int base) (.int exponent)
  | [base, exponent] => floatPower h base exponent
  | args => wrongCount .pow (.exactly 2) args

/-- The smaller of two floats; what is no number does not count. -/
def lesser (a b : Float) : Float :=
  if b.isNaN then a else if a.isNaN then b else if b < a then b else a

/-- The larger of two floats; what is no number does not count. -/
def greater (a b : Float) : Float :=
  if b.isNaN then a else if a.isNaN then b else if a < b then b else a

def replyMin (h : Heap) : List Value → Reply
  | [.int a, .int b] => reply (.int (if b < a then b else a))
  | [a, b] => do
    let a ← numberArg h .min 1 a
    let b ← numberArg h .min 2 b
    reply (.float (lesser a b))
  | args => wrongCount .min (.exactly 2) args

def replyMax (h : Heap) : List Value → Reply
  | [.int a, .int b] => reply (.int (if a < b then b else a))
  | [a, b] => do
    let a ← numberArg h .max 1 a
    let b ← numberArg h .max 2 b
    reply (.float (greater a b))
  | args => wrongCount .max (.exactly 2) args

/-- Rounds a float to an integer; an integer stays as it is. -/
def rounded (h : Heap) (f : Builtin) (round : Float → Int64) :
    List Value → Reply
  | [.int n] => reply (.int n)
  | [v] => do reply (.int (round (← numberArg h f 1 v)))
  | args => wrongCount f (.exactly 1) args

end Script.Builtin
