import Script.Syntax.Tree

/-!
# Jumps and calls in a tree

Which jumps and calls are written in a piece of program, and how deep inside
loops and functions they are.  From this follows whether a loop can be left and
how often a function calls itself.
-/

namespace Script

/-- The number of loops and of functions around a place, counted from where one
starts to look. -/
structure Depth where
  loops : Nat := 0
  functions : Nat := 0
  deriving DecidableEq, Repr

def Depth.inLoop (d : Depth) : Depth := { d with loops := d.loops + 1 }

def Depth.inFunction (d : Depth) : Depth :=
  { d with functions := d.functions + 1 }

inductive Mark where
  | brk (depth : Depth)
  | ret (depth : Depth)
  /-- A call of a name. -/
  | call (name : String)
  deriving DecidableEq, Repr

/-- The mark of a call, if it calls a name. -/
def calleeMarks : Expr → List Mark
  | .name id => [.call id.text]
  | _ => []

mutual

def Expr.marks : Expr → Depth → List Mark
  | .name _, _ | .int .., _ | .float .., _ | .str .., _ | .bool .., _ => []
  | .unary _ right _, d => right.marks d
  | .binary left _ right _, d => left.marks d ++ right.marks d
  | .step _ target _, d => target.marks d
  | .assign target _ value _, d => target.marks d ++ value.marks d
  | .branch condition consequence alternative _, d =>
    condition.marks d ++ consequence.marks d ++ marksOfBlock? alternative d
  | .function f, d => f.marks d
  | .arrow _ body _, d => body.marks d.inFunction
  | .call callee args _, d =>
    calleeMarks callee ++ callee.marks d ++ marksOfExprs args d
  | .array elements _, d => marksOfExprs elements d
  | .index left index _, d => left.marks d ++ index.marks d
  | .slice left start stop _, d =>
    left.marks d ++ marksOfExpr? start d ++ marksOfExpr? stop d
  | .spread value _, d => value.marks d
  | .map entries _, d => marksOfEntries entries d
  | .member object _ _, d => object.marks d
  | .record _ fields _, d => marksOfFields fields d
  | .whileLoop condition body _, d => condition.marks d ++ body.marks d.inLoop
  | .forLoop header body _, d => header.marks d ++ body.marks d.inLoop
  | .switch subject cases default _, d =>
    subject.marks d ++ marksOfCases cases d ++ marksOfBlock? default d
  | .ternary condition consequence alternative _, d =>
    condition.marks d ++ consequence.marks d ++ alternative.marks d
  | .range start stop _, d => start.marks d ++ stop.marks d
  | .attempt t, d => t.marks d
termination_by structural e => e

def Function.marks : Function → Depth → List Mark
  | ⟨_, _, _, body, _⟩, d => body.marks d.inFunction
termination_by structural f => f

def Block.marks : Block → Depth → List Mark
  | ⟨statements, _⟩, d => marksOfStmts statements d
termination_by structural b => b

def LoopHeader.marks : LoopHeader → Depth → List Mark
  | .items _ iterable, d | .pairs _ _ iterable, d => iterable.marks d
  | .counting start condition update, d =>
    marksOfStmt? start d ++ marksOfExpr? condition d ++ marksOfExpr? update d
termination_by structural h => h

def Entry.marks : Entry → Depth → List Mark
  | ⟨key, value⟩, d => key.marks d ++ value.marks d
termination_by structural e => e

def Field.marks : Field → Depth → List Mark
  | ⟨_, value⟩, d => value.marks d
termination_by structural f => f

def Case.marks : Case → Depth → List Mark
  | ⟨values, body, _⟩, d => marksOfExprs values d ++ body.marks d
termination_by structural c => c

def Attempt.marks : Attempt → Depth → List Mark
  | ⟨body, _, handler, _⟩, d => body.marks d ++ marksOfBlock? handler d
termination_by structural t => t

def Stmt.marks : Stmt → Depth → List Mark
  | .bind _ _ _ value _, d => value.marks d
  | .ret value _, d => .ret d :: marksOfExpr? value d
  | .attempt t, d => t.marks d
  | .method _ f _, d => f.marks d
  | .brk _, d => [.brk d]
  | .expr e _, d => e.marks d
  | .includes .., _ | .struct .., _ | .enum .., _ | .cont _, _ => []
termination_by structural s => s

def marksOfExprs : List Expr → Depth → List Mark
  | [], _ => []
  | e :: rest, d => e.marks d ++ marksOfExprs rest d
termination_by structural es => es

def marksOfEntries : List Entry → Depth → List Mark
  | [], _ => []
  | e :: rest, d => e.marks d ++ marksOfEntries rest d
termination_by structural es => es

def marksOfFields : List Field → Depth → List Mark
  | [], _ => []
  | f :: rest, d => f.marks d ++ marksOfFields rest d
termination_by structural fs => fs

def marksOfCases : List Case → Depth → List Mark
  | [], _ => []
  | c :: rest, d => c.marks d ++ marksOfCases rest d
termination_by structural cs => cs

def marksOfStmts : List Stmt → Depth → List Mark
  | [], _ => []
  | s :: rest, d => s.marks d ++ marksOfStmts rest d
termination_by structural ss => ss

def marksOfExpr? : Option Expr → Depth → List Mark
  | none, _ => []
  | some e, d => e.marks d
termination_by structural e => e

def marksOfStmt? : Option Stmt → Depth → List Mark
  | none, _ => []
  | some s, d => s.marks d
termination_by structural s => s

def marksOfBlock? : Option Block → Depth → List Mark
  | none, _ => []
  | some b, d => b.marks d
termination_by structural b => b

end

/-- Whether a jump leaves the loop whose body it was found in. -/
def Mark.leavesLoop : Mark → Bool
  | .brk d => d.loops == 0 && d.functions == 0
  | .ret d => d.functions == 0
  | .call _ => false

/-- Whether a loop body contains a `break` that is meant for its loop, or a
`return` from the function around it. -/
def Block.canLeave (body : Block) : Bool := (body.marks {}).any Mark.leavesLoop

/-- How many calls of a name a block contains. -/
def Block.callsTo (body : Block) (name : String) : Nat :=
  (body.marks {}).count (.call name)

end Script
