import Script.Eval.Branch
import Script.Eval.Declaration
import Script.Eval.Loop
import Script.Eval.Place
import Script.Number.Numeral

/-!
# Evaluation

The rules of evaluation, one for each form of expression and statement, and the
recursion through them.
-/

namespace Script

open Scope (Arena FrameId)

namespace Evaluator

variable (ev : Evaluator)

/-- The value of a float literal. -/
def floatValue (literal : String) : Float :=
  (Numeral.float? literal.toList).getD 0

def evalExpr (frame : FrameId) : Expr → Eval Value
  | .name id => Eval.nameValue id frame
  | .int value _ => return .int value
  | .float literal _ => return .float (floatValue literal)
  | .str value _ => return .str value
  | .bool value _ => return .bool value
  | .unary op right loc => ev.unary op right loc frame
  | .binary left op right loc => ev.binary left op right loc frame
  | .step op target _ => return .int (← ev.step op target frame).1
  | .assign target op value loc => ev.assign target op value loc frame
  | .branch condition consequence alternative _ =>
    ev.branch condition consequence alternative frame
  | .function f => return .function (← Eval.makeFunction f frame)
  | .arrow params body _ => Eval.makeArrow params body frame
  | .call callee args loc => ev.callExpr callee args loc frame
  | .array elements _ => ev.arrayLiteral elements frame
  | .index left index loc => ev.index left index loc frame
  | .slice left start stop loc => ev.slice left start stop loc frame
  | .spread _ loc =>
    Eval.fail (.operator "..."
      "spread is only allowed inside array literals and call arguments") loc
  | .map entries _ => ev.mapLiteral entries frame
  | .member object property loc => ev.member object property loc frame
  | .record struct fields _ => ev.recordLiteral struct fields frame
  | .whileLoop condition body loc => ev.whileLoop condition body loc frame
  | .forLoop header body loc => ev.forLoop header body loc frame
  | .switch subject cases default _ => ev.switch subject cases default frame
  | .ternary condition consequence alternative _ =>
    ev.ternary condition consequence alternative frame
  | .range start stop loc => ev.range start stop loc frame
  | .attempt t => ev.attempt t frame

def evalStmt (frame : FrameId) : Stmt → Eval Value
  | .bind constant name type value loc =>
    ev.declare constant name type value loc frame
  | .ret value _ => ev.leaveWith value frame
  | .includes modules _ loc =>
    Eval.includeModules ev.settings.library loc frame modules
  | .attempt t => ev.attempt t frame
  | .struct name fields _ => Eval.declareStruct name fields frame
  | .enum name variants _ => Eval.declareEnum name variants frame
  | .method struct f _ => Eval.declareMethod struct f frame
  | .brk _ => Eval.leave .broke
  | .cont _ => Eval.leave .continued
  | .expr e _ => ev.expr e frame

def evalTask : Task → Eval Value
  | .expr e frame => ev.evalExpr frame e
  | .stmt s frame => ev.evalStmt frame s
  | .apply callee args loc => ev.call callee args loc

end Evaluator

/-- Carries out a task.  `n` bounds how deep evaluation goes and how often a loop
goes round. -/
def evaluate (settings : Settings) : Nat → Task → Eval Value
  | 0, _ => Eval.outOfBound
  | n + 1, task =>
    Evaluator.evalTask
      { settings, rounds := n, run := evaluate settings n } task

/-- The evaluator with a given bound. -/
def Evaluator.bounded (settings : Settings) (bound : Nat) : Evaluator :=
  { settings, rounds := bound, run := evaluate settings bound }

/-- Evaluates a program in the root frame.  Its value is that of its last
statement, or that of a `return`. -/
def Evaluator.program (ev : Evaluator) (p : Program) : Eval Value := do
  let c ← Eval.complete (ev.statementsFrom Arena.root p.statements .null)
  return c.value

end Script
