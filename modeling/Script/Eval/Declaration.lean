import Script.Eval.Call
import Script.Syntax.Scan

/-!
# Declarations
-/

namespace Script

open Scope (FrameId)

namespace Eval

/-- Notes that a function calls itself more than once. -/
def noteRecursion (v : Value) (loc : Location) : Eval Unit :=
  match v with
  | .function f =>
    match f.code.name with
    | some name =>
      let calls := f.code.body.callsTo name
      if 2 ≤ calls then advise (.treeRecursion name calls) loc
      else return ()
    | none => return ()
  | _ => return ()

/-- The variants of an enumeration with their numbers: one that has none given
comes after the one before it. -/
def numberVariants (next : Int64) : List VariantDecl → List (String × Int64)
  | [] => []
  | v :: variants =>
    let value := v.value.getD next
    (v.name.text, value) :: numberVariants (value + 1) variants

def declareStruct (name : Name) (fields : List Name) (frame : FrameId) :
    Eval Value := do
  let v ← onHeap (·.newStruct name.text (fields.map (·.text)))
  define frame name.text v
  return .null

def declareEnum (name : Name) (variants : List VariantDecl)
    (frame : FrameId) : Eval Value := do
  let id ← onHeap (·.newIdentity)
  define frame name.text
    (.enum { id, name := name.text, variants := numberVariants 0 variants })
  return .null

def declareMethod (struct : Name) (f : Function) (frame : FrameId) :
    Eval Value := do
  match ← lookup? frame struct.text with
  | some (.struct d) =>
    let closure ← makeFunction f frame
    onHeap fun h => ((), h.addMethod d (f.name.getD "") closure)
    return .null
  | _ => fail (.structNotFound struct.text) struct.loc

def defineAll (frame : FrameId) : List (String × Value) → Eval Unit
  | [] => return ()
  | (name, v) :: bindings => do
    define frame name v
    defineAll frame bindings

def includeModules (library : Library) (loc : Location) (frame : FrameId) :
    List String → Eval Value
  | [] => return .null
  | name :: modules => do
    match library name with
    | some bindings =>
      defineAll frame bindings
      includeModules library loc frame modules
    | none => fail (.moduleNotFound name) loc

end Eval

namespace Evaluator

variable (ev : Evaluator)

/-- `let` and `const`. -/
def declare (constant : Bool) (name : Name) (type : Option TypeExpr)
    (value : Expr) (loc : Location) (frame : FrameId) : Eval Value := do
  let v ← ev.expr value frame
  match type with
  | some type => Eval.checkBinding name.text type v frame loc
  | none => pure ()
  if ← Eval.read fun m => m.scopes.isLocalConstant frame name.text then
    Eval.fail (.constantReassignment name.text) name.loc
  else
    Eval.noteRecursion v loc
    Eval.onScopes (·.bind frame { name := name.text, value := v, constant })
    return .null

def leaveWith (value : Option Expr) (frame : FrameId) : Eval Value := do
  let v ← ev.optional frame value
  Eval.leave (.returned (v.getD .null))

end Evaluator

end Script
