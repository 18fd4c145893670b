import Script.Eval.Machine
import Script.Syntax.Printer
import Script.Value.Type

/-!
# Checks of annotations

A type in an annotation has to be known where it stands before any value is
checked against it.
-/

namespace Script

open Scope (Arena FrameId)

/-- Whether a name stands for a struct or an enumeration. -/
def isDeclaredType (scopes : Arena Value) (frame : FrameId) (name : String) :
    Bool :=
  match scopes.get? frame name with
  | some (.struct _) | some (.enum _) => true
  | _ => false

/-- The first unknown type in an annotation; what is inside comes first, and the
values of a map come before its keys. -/
def unknownType? (scopes : Arena Value) (frame : FrameId) :
    TypeExpr → Option (String × Location)
  | .named name loc =>
    if isBaseType name || isDeclaredType scopes frame name then none
    else some (name, loc)
  | .array element _ => unknownType? scopes frame element
  | .map key value _ =>
    match unknownType? scopes frame value with
    | some unknown => some unknown
    | none => unknownType? scopes frame key

namespace Eval

/-- Fails if an annotation contains an unknown type. -/
def requireKnown (type : TypeExpr) (frame : FrameId) : Eval Unit := fun m =>
  match unknownType? m.scopes frame type with
  | some (name, loc) => .left (.failed (.unknownType name) loc) m
  | none => .done () m

/-- What is wrong with the value of a declaration, if its annotation does not
admit it. -/
def bindingProblem? (h : Heap) (name : String) (type : TypeExpr) (v : Value) :
    Option Problem :=
  if h.hasType type v then none
  else
    match h.firstMismatch? type v with
    | some (position, item) =>
      let expected := (type.element?.map TypeExpr.print).getD "any"
      some (.elementType expected (h.typeName item) position)
    | none => some (.variableType name type.print (h.typeName v))

/-- Checks the value of a declaration against its annotation. -/
def checkBinding (name : String) (type : TypeExpr) (v : Value)
    (frame : FrameId) (loc : Location) : Eval Unit := do
  requireKnown type frame
  match ← read fun m => bindingProblem? m.heap name type v with
  | some problem => fail problem loc
  | none => return ()

/-- Checks an argument against the annotation of its parameter. -/
def checkArgument (function : String) (param : TypedName) (v : Value)
    (frame : FrameId) (loc : Location) : Eval Unit := do
  requireKnown param.type frame
  askHeap loc fun h =>
    if h.hasType param.type v then .ok ()
    else
      .error (.parameterType function param.name.text param.type.print
        (h.typeName v))

end Eval

end Script
