import Script.Eval.Evaluator
import Script.Value.Access
import Script.Value.Operator

/-!
# Operators and assignments

A place is what an assignment or a step writes to: a name, an element or a
member.  The expressions in it are evaluated once, when it is found.
-/

namespace Script

open Scope (FrameId)

inductive Place where
  | name (id : Name)
  | element (container index : Value) (loc : Location)
  | member (object : Value) (name : String) (loc : Location)

namespace Eval

/-- The value of a name: what it is bound to, or a built-in function. -/
def nameValue (id : Name) (frame : FrameId) : Eval Value := fun m =>
  match m.scopes.get? frame id.text with
  | some v => .done v m
  | none =>
    match Builtin.global? id.text with
    | some f => .done (.builtin f) m
    | none => .left (.failed (.undefinedVariable id.text) id.loc) m

/-- Takes over what has been computed, after noting what came up. -/
def takeComputed (c : Computed) (loc : Location) : Eval Value := do
  adviseAll c.advisories loc
  onHeap (·.take c.answer)

/-- An operator on two values. -/
def binary (op : BinaryOp) (left right : Value) (loc : Location) :
    Eval Value := do
  let c ← askHeap loc fun h => Operator.binary h op left right
  takeComputed c loc

def readPlace (frame : FrameId) : Place → Eval Value
  | .name id => nameValue id frame
  | .element container index loc => askHeap loc (·.element container index)
  | .member object name loc => askHeap loc (·.member object name)

/-- Gives a name a new value where it is bound, or binds it here. -/
def assignName (id : Name) (value : Value) (frame : FrameId) : Eval Unit := do
  if ← read fun m => m.scopes.isConstant frame id.text then
    fail (.constantReassignment id.text) id.loc
  else
    onScopes fun scopes =>
      let (found, scopes) := scopes.update frame id.text value
      if found then scopes else scopes.set frame id.text value

def storePart (part : Heap.Part) (value : Value) : Eval Unit :=
  onHeap fun h => ((), h.store part value)

def writePlace (frame : FrameId) (value : Value) : Place → Eval Unit
  | .name id => assignName id value frame
  | .element container index loc => do
    let part ← askHeap loc (·.elementPart container index)
    storePart part value
  | .member object name loc => do
    let part ← askHeap loc (·.memberPart object name)
    storePart part value

end Eval

namespace Evaluator

variable (ev : Evaluator)

/-- The place that an expression stands for, if it can be written to. -/
def place? (frame : FrameId) : Expr → Eval (Option Place)
  | .name id => return some (.name id)
  | .index left index loc => do
    let container ← ev.expr left frame
    let index ← ev.expr index frame
    return some (.element container index loc)
  | .member object property loc => do
    let object ← ev.expr object frame
    return some (.member object property.text loc)
  | _ => return none

/-- What an expression is called that cannot be written to. -/
def targetName : Expr → String
  | .int .. | .float .. | .str .. | .bool .. => "literal"
  | .call .. => "function call"
  | .slice .. => "slice"
  | _ => "expression"

def assign (target : Expr) (op : AssignOp) (value : Expr) (loc : Location)
    (frame : FrameId) : Eval Value := do
  match ← ev.place? frame target with
  | none => Eval.fail (.assignment (targetName target)) loc
  | some place =>
    match op.binary? with
    | none =>
      let v ← ev.expr value frame
      Eval.writePlace frame v place
      return v
    | some op =>
      let current ← Eval.readPlace frame place
      let right ← ev.expr value frame
      let v ← Eval.binary op current right loc
      Eval.writePlace frame v place
      return v

/-- What a step adds. -/
def delta : StepOp → Int64
  | .increment => 1
  | .decrement => -1

/-- The result of a step from `old`, with the report if it wraps around. -/
def stepped (op : StepOp) (old : Int64) : Int64 × List Problem :=
  match Operator.checked? .add old (delta op) with
  | some new => (new, [])
  | none =>
    let sign := if 0 < delta op then "+" else "-"
    (Operator.wrapping .add old (delta op), [.integerOverflow old sign 1])

/-- Steps the integer in a place, and gives it before and after. -/
def step (op : StepOp) (target : Expr) (frame : FrameId) :
    Eval (Int64 × Int64) := do
  match ← ev.place? frame target with
  | none =>
    Eval.fail (.operator op.text "operand must be a variable, index or field")
      target.loc
  | some place =>
    match ← Eval.readPlace frame place with
    | .int old =>
      let (new, problems) := stepped op old
      Eval.adviseAll problems target.loc
      Eval.writePlace frame (.int new) place
      return (old, new)
    | v => Eval.fail (.unknownOperator op.text v.tag) target.loc

def unary (op : PrefixOp) (right : Expr) (loc : Location) (frame : FrameId) :
    Eval Value := do
  match op with
  | .increment => return .int (← ev.step .increment right frame).2
  | .decrement => return .int (← ev.step .decrement right frame).2
  | .not => return .bool (!(← ev.holds right frame))
  | .minus =>
    match ← ev.expr right frame with
    | .int n => Eval.takeComputed (Operator.negated n) loc
    | .float x => return .float (-x)
    | v => Eval.fail (.unknownOperator "-" v.tag) loc

/-- `&&` and `||` look at the right side only if the left one leaves it open. -/
def binary (left : Expr) (op : BinaryOp) (right : Expr) (loc : Location)
    (frame : FrameId) : Eval Value := do
  match op with
  | .and =>
    if ← ev.holds left frame then return .bool (← ev.holds right frame)
    else return .bool false
  | .or =>
    if ← ev.holds left frame then return .bool true
    else return .bool (← ev.holds right frame)
  | op =>
    let left ← ev.expr left frame
    let right ← ev.expr right frame
    Eval.binary op left right loc

end Evaluator

end Script
