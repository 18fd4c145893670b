import Script.Eval.Machine
import Script.Value.Type

/-!
# The recursive parts of evaluation

Every rule of evaluation is defined on its own and gets an `Evaluator`, which
evaluates what is inside.  The recursion is closed in one place.
-/

namespace Script

open Scope (FrameId)

/-- What can be asked of an evaluator. -/
inductive Task where
  | expr (e : Expr) (frame : FrameId)
  | stmt (s : Stmt) (frame : FrameId)
  | apply (callee : Value) (args : List Value) (loc : Location)

structure Evaluator where
  settings : Settings
  /-- How often a loop without a fixed end may go round. -/
  rounds : Nat
  run : Task → Eval Value

namespace Evaluator

variable (ev : Evaluator)

@[inline]
def expr (e : Expr) (frame : FrameId) : Eval Value := ev.run (.expr e frame)

@[inline]
def stmt (s : Stmt) (frame : FrameId) : Eval Value := ev.run (.stmt s frame)

@[inline]
def apply (callee : Value) (args : List Value) (loc : Location) : Eval Value :=
  ev.run (.apply callee args loc)

/-- Whether an expression counts as true. -/
@[inline]
def holds (e : Expr) (frame : FrameId) : Eval Bool := do
  let v ← ev.expr e frame
  Eval.read fun m => m.heap.truthy v

/-- An expression that may be missing. -/
def optional (frame : FrameId) : Option Expr → Eval (Option Value)
  | none => return none
  | some e => return some (← ev.expr e frame)

/-- The value of the last statement, or `last` if there is none. -/
def statementsFrom (frame : FrameId) : List Stmt → Value → Eval Value
  | [], last => return last
  | s :: statements, _ => do
    let v ← ev.stmt s frame
    statementsFrom frame statements v

/-- The statements of a block in a given frame. -/
@[inline]
def block (b : Block) (frame : FrameId) : Eval Value :=
  ev.statementsFrom frame b.statements .null

/-- A block in a frame of its own. -/
def scopedBlock (b : Block) (outer : FrameId) : Eval Value :=
  Eval.inChild outer (ev.block b)

end Evaluator

end Script
