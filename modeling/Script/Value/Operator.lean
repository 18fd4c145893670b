import Script.Diagnostic.Problem
import Script.Number.Binary64
import Script.Value.Equality

/-!
# Operators

What the operators do with values.  Integers have 64 bits: a result that is too
large wraps around, and this is noticed.
-/

namespace Script

/-- A result, with what has been noticed on the way. -/
structure Computed where
  answer : Heap.Answer
  advisories : List Problem := []

namespace Computed

def plain (v : Value) : Computed := { answer := .value v }

end Computed

namespace Operator

variable {α : Type} [LT α] [LE α] [DecidableLT α] [DecidableLE α]

/-- The result of a comparison, if the operator is one. -/
def compare? (op : BinaryOp) (a b : α) : Option Bool :=
  match op with
  | .lt => some (a < b)
  | .gt => some (b < a)
  | .le => some (a ≤ b)
  | .ge => some (b ≤ a)
  | _ => none

/-- A comparison, where other operators are not defined for the kind. -/
def comparison (op : BinaryOp) (kind : Kind) (a b : α) :
    Except Problem Computed :=
  match compare? op a b with
  | some result => .ok (.plain (.bool result))
  | none => .error (.unknownOperator op.text kind.tag)

/-! ### Integers -/

/-- Whether a number is one of the integers that programs have. -/
def fits (n : Int) : Bool :=
  -9223372036854775808 ≤ n && n ≤ 9223372036854775807

/-- The result of an operator, if it fits.  Where the smallest integer is divided by
-1 the quotient does not, and the remainder counts as too large as well. -/
def checked? (op : BinaryOp) (a b : Int64) : Option Int64 :=
  match op with
  | .add => if fits (a.toInt + b.toInt) then some (a + b) else none
  | .sub => if fits (a.toInt - b.toInt) then some (a - b) else none
  | .mul => if fits (a.toInt * b.toInt) then some (a * b) else none
  | .div =>
    if b = 0 ∨ a = Int64.minValue ∧ b = -1 then none else some (a / b)
  | _ => if b = 0 ∨ a = Int64.minValue ∧ b = -1 then none else some (a % b)

/-- The result of an operator, wrapped around if it does not fit. -/
def wrapping (op : BinaryOp) (a b : Int64) : Int64 :=
  match op with
  | .add => a + b
  | .sub => a - b
  | .mul => a * b
  | .div => a / b
  | _ => a % b

/-- The result that fits, or else the one that has wrapped around, with a report. -/
def settled (a : Int64) (op : String) (b : Int64) (checked : Option Int64)
    (wrapped : Int64) : Computed :=
  match checked with
  | some n => .plain (.int n)
  | none =>
    { answer := .value (.int wrapped)
      advisories := [.integerOverflow a op b] }

@[simp]
theorem answer_settled (a : Int64) (op : String) (b : Int64) (checked : Option Int64)
    (wrapped : Int64) :
    (settled a op b checked wrapped).answer =
      .value (.int (checked.getD wrapped)) := by
  cases checked <;> rfl

def arithmetic (op : BinaryOp) (a b : Int64) : Computed :=
  settled a op.text b (checked? op a b) (wrapping op a b)

/-- An operator on integers.  Quotients are cut off, and a remainder has the sign
of the left operand. -/
def integer (op : BinaryOp) (a b : Int64) : Except Problem Computed :=
  match op with
  | .add | .sub | .mul => .ok (arithmetic op a b)
  | .div =>
    if b = 0 then .error .divisionByZero else .ok (arithmetic op a b)
  | .mod =>
    if b = 0 then .error .divisionByZero
    else
      let negative := if a < 0 ∨ b < 0 then [Problem.negativeModulo] else []
      let c := arithmetic op a b
      .ok { c with advisories := negative ++ c.advisories }
  | op => comparison op .int a b

/-- The negative of an integer. -/
def negated (n : Int64) : Computed :=
  settled 0 "-" n (if n = Int64.minValue then none else some (-n)) (-n)

/-! ### Floats -/

/-- An operator on floats. -/
def float (op : BinaryOp) (a b : Float) : Except Problem Computed :=
  match op with
  | .add => .ok (.plain (.float (a + b)))
  | .sub => .ok (.plain (.float (a - b)))
  | .mul => .ok (.plain (.float (a * b)))
  | .div =>
    if b == 0 then .error .divisionByZero else .ok (.plain (.float (a / b)))
  | .mod =>
    if b == 0 then .error .divisionByZero
    else .ok (.plain (.float (Binary64.remainder a b)))
  | op => comparison op .float a b

/-! ### All values -/

/-- `==` and `!=`. -/
def equality (h : Heap) (op : BinaryOp) (left right : Value) :
    Except Problem Computed :=
  match h.equal? left right with
  | none => .error (.typeMismatch left.tag op.text right.tag)
  | some equal =>
    .ok {
      answer := .value (.bool (if op = .eq then equal else !equal))
      advisories :=
        if left.isNull || right.isNull then [.nullComparison op.text] else [] }

/-- An operator on two values of any kinds. -/
def binary (h : Heap) (op : BinaryOp) (left right : Value) :
    Except Problem Computed :=
  if op = .eq ∨ op = .ne then equality h op left right
  else
    match left, right with
    | .int a, .int b => integer op a b
    | .float a, .float b => float op a b
    | .int a, .float b => float op a.toFloat b
    | .float a, .int b => float op a b.toFloat
    | .str a, .str b =>
      if op = .add then .ok (.plain (.str (a ++ b)))
      else comparison op .str a b
    | .array a, .array b =>
      if op = .add then .ok { answer := .array (h.items a ++ h.items b) }
      else .error (.unknownOperator op.text left.tag)
    | .char a, .char b => comparison op .char a b
    | .rune a, .rune b => comparison op .rune a b
    | .byte a, .byte b => comparison op .byte a b
    | .variant a, .variant b =>
      if a.enum = b.enum then comparison op .variant a.value b.value
      else .error (.unknownOperator op.text left.tag)
    | left, right =>
      if left.kind = right.kind then .error (.unknownOperator op.text left.tag)
      else .error (.typeMismatch left.tag op.text right.tag)

end Operator

end Script
