import Script.Eval.Evaluator
import Script.Value.Equality

/-!
# Choices

Conditions, switches, and what is done about errors.
-/

namespace Script

open Scope (FrameId)

namespace Evaluator

variable (ev : Evaluator)

def scopedBlock? (frame : FrameId) : Option Block → Eval Value
  | none => return .null
  | some b => ev.scopedBlock b frame

def branch (condition : Expr) (consequence : Block)
    (alternative : Option Block) (frame : FrameId) : Eval Value := do
  if ← ev.holds condition frame then ev.scopedBlock consequence frame
  else ev.scopedBlock? frame alternative

def ternary (condition consequence alternative : Expr) (frame : FrameId) :
    Eval Value := do
  if ← ev.holds condition frame then ev.expr consequence frame
  else ev.expr alternative frame

/-- Whether one of the values of a case is the subject; those behind it are not
evaluated. -/
def selects (subject : Value) (frame : FrameId) : List Expr → Eval Bool
  | [] => return false
  | e :: values => do
    let v ← ev.expr e frame
    if ← Eval.read fun m => m.heap.same subject v then return true
    else selects subject frame values

def switchCases (subject : Value) (default : Option Block) (frame : FrameId) :
    List Case → Eval Value
  | [] => ev.scopedBlock? frame default
  | c :: cases => do
    if ← ev.selects subject frame c.values then ev.scopedBlock c.body frame
    else switchCases subject default frame cases

def switch (subject : Expr) (cases : List Case) (default : Option Block)
    (frame : FrameId) : Eval Value := do
  let subject ← ev.expr subject frame
  ev.switchCases subject default frame cases

/-- Handles an error; the parameter stands for its message. -/
def handle (t : Attempt) (frame : FrameId) (problem : Problem) : Eval Value :=
  match t.handler with
  | none => return .null
  | some handler =>
    Eval.inChild frame fun scope => do
      match t.param with
      | some name => Eval.define scope name.text (.str problem.message)
      | none => pure ()
      ev.block handler scope

def attempt (t : Attempt) (frame : FrameId) : Eval Value :=
  Eval.orElse (ev.scopedBlock t.body frame) (ev.handle t frame)

end Evaluator

end Script
