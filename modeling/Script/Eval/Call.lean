import Script.Eval.Annotation
import Script.Eval.Collection
import Script.Eval.Native

/-!
# Functions and calls

A call runs the body of a function in a new frame inside the frame where the
function was made.
-/

namespace Script

open Scope (FrameId)

/-- How the body of a function has ended: with the value of its last statement,
or with the value of a `return`. -/
structure Completion where
  value : Value
  explicit : Bool

namespace Eval

/-- Makes a function.  It pins the frame it was made in. -/
def makeFunction (f : Function) (frame : FrameId) : Eval Closure := fun m =>
  let (_, scopes) := m.scopes.pin frame
  let (id, heap) := m.heap.newIdentity
  .done { id, code := f, frame } { m with scopes, heap }

def makeArrow (params : List Name) (body : Expr) (frame : FrameId) :
    Eval Value := fun m =>
  let (_, scopes) := m.scopes.pin frame
  let (id, heap) := m.heap.newIdentity
  .done (.arrow { id, params, body, frame }) { m with scopes, heap }

/-- Ends a `return` here.  A `break` or `continue` that no loop has taken up ends
the body without a value. -/
@[inline]
def complete (body : Eval Value) : Eval Completion := fun m =>
  match body m with
  | .done value m => .done { value, explicit := false } m
  | .left (.returned value) m => .done { value, explicit := true } m
  | .left .broke m | .left .continued m =>
    .done { value := .null, explicit := false } m
  | .left (.failed problem loc) m => .left (.failed problem loc) m
  | .exhausted => .exhausted

def bindNames (frame : FrameId) : List Name → List Value → Eval Unit
  | name :: names, v :: values => do
    define frame name.text v
    bindNames frame names values
  | _, _ => return ()

def bindTyped (function : String) (frame : FrameId) (loc : Location) :
    List TypedName → List Value → Eval Unit
  | param :: params, v :: values => do
    checkArgument function param v frame loc
    define frame param.name.text v
    bindTyped function frame loc params values
  | _, _ => return ()

def bindParams (function : String) (params : Params) (args : List Value)
    (frame : FrameId) (loc : Location) : Eval Unit :=
  match params with
  | .plain names => bindNames frame names args
  | .typed params => bindTyped function frame loc params args

/-! ### Return types -/

def isVoid : TypeExpr → Bool
  | .named "void" _ => true
  | _ => false

/-- A list of types as it is written. -/
def typesText (types : List String) : String :=
  "(" ++ ", ".intercalate types ++ ")"

/-- Checks what a function with one return type gives.  A function without a
value drops that of its last statement, but must not return one. -/
def checkSingle (h : Heap) (function : String) (type : TypeExpr)
    (c : Completion) : Except Problem Value :=
  if isVoid type then
    if c.explicit && !c.value.isNull then
      .error (.voidReturn function (h.typeName c.value))
    else .ok .null
  else if h.hasType type c.value then .ok c.value
  else if c.value.isNull then .error (.missingReturn function type.print)
  else .error (.returnType function type.print (h.typeName c.value))

/-- Whether each value has the type at its position, and there are as many. -/
def haveTypes (h : Heap) (types : List TypeExpr) (values : List Value) : Bool :=
  values.length == types.length &&
    (types.zip values).all fun (type, v) => h.hasType type v

/-- Checks what a function with several return types gives: an array of as many
items. -/
def checkSeveral (h : Heap) (function : String) (types : List TypeExpr)
    (v : Value) : Except Problem Value :=
  let expected := typesText (types.map TypeExpr.print)
  match v with
  | .array cell =>
    let items := (h.items cell).toList
    if haveTypes h types items then .ok v
    else .error (.returnType function expected
      (typesText (items.map h.typeName)))
  | v => .error (.returnType function expected (h.typeName v))

def checkReturn (f : Closure) (c : Completion) (loc : Location) :
    Eval Value := do
  match f.code.returns with
  | [] => return c.value
  | [type] =>
    requireKnown type f.frame
    askHeap loc fun h => checkSingle h f.name type c
  | types => askHeap loc fun h => checkSeveral h f.name types c.value

/-- What a name stands for when it is called behind a point: a function in scope,
or a built-in one. -/
def freeFunction? (frame : FrameId) (name : String) : Eval (Option Value) :=
  read fun m =>
    match m.scopes.get? frame name with
    | some v =>
      if v.isCallable then some v
      else (Builtin.global? name).map Value.builtin
    | none => (Builtin.global? name).map Value.builtin

end Eval

namespace Evaluator

variable (ev : Evaluator)

def runBody (f : Closure) (args : List Value) (receiver : Option Value)
    (loc : Location) (frame : FrameId) : Eval Completion := do
  match receiver with
  | some v => Eval.define frame "self" v
  | none => pure ()
  Eval.bindParams f.name f.code.params args frame loc
  Eval.inCall ev.settings.callLimit f.name loc
    (Eval.complete (ev.block f.code.body frame))

/-- Calls a function, or a method of the receiver. -/
def callFunction (f : Closure) (args : List Value) (receiver : Option Value)
    (loc : Location) : Eval Value := do
  let count := f.code.params.count
  if args.length = count then
    let c ← Eval.inChild f.frame (ev.runBody f args receiver loc)
    Eval.checkReturn f c loc
  else
    Eval.fail (.invalidArgument f.name (Builtin.countText count)
      (toString args.length)) loc

def arrowName : String := "arrow function"

def callArrow (f : ArrowClosure) (args : List Value) (loc : Location) :
    Eval Value := do
  if args.length = f.params.length then
    let c ← Eval.inCall ev.settings.callLimit arrowName loc <|
      Eval.inChild f.frame fun frame => do
        Eval.bindNames frame f.params args
        Eval.complete (ev.expr f.body frame)
    return c.value
  else
    Eval.fail (.invalidArgument arrowName (Builtin.countText f.params.length)
      (toString args.length)) loc

/-- Calls a value. -/
def call (callee : Value) (args : List Value) (loc : Location) : Eval Value :=
  match callee with
  | .function f => ev.callFunction f args none loc
  | .arrow f => ev.callArrow f args loc
  | .builtin f => ev.callBuiltin f args loc
  | v => Eval.fail (.notAFunction v.tag) loc

/-- Calls a function with the receiver as its first argument. -/
def callFree (free : Option Value) (receiver : Value) (args : List Value)
    (problem : Problem) (loc : Location) : Eval Value :=
  match free with
  | some f => ev.call f (receiver :: args) loc
  | none => Eval.fail problem loc

/-- `receiver.name(args)`: a method, a field or entry that can be called, or a
function that takes the receiver as its first argument. -/
def callMember (receiver : Value) (name : String) (args : List Value)
    (frame : FrameId) (loc : Location) : Eval Value := do
  let free ← Eval.freeFunction? frame name
  match receiver with
  | .record cell =>
    let r ← Eval.read (·.heap.instanceAt cell)
    match ← Eval.read fun m => (m.heap.methodsOf r.struct)[name]? with
    | some method => ev.callFunction method args (some receiver) loc
    | none =>
      match r.fields[name]?.filter Value.isCallable with
      | some f => ev.call f args loc
      | none =>
        ev.callFree free receiver args (.propertyNotFound name r.struct.name) loc
  | .struct d =>
    match ← Eval.read fun m => (m.heap.methodsOf d)[name]? with
    | some method => ev.callFunction method args none loc
    | none =>
      ev.callFree free receiver args (.memberAccess receiver.tag name) loc
  | .map cell =>
    let v ← Eval.read (·.heap.entry cell (Value.textKey name))
    if v.isCallable then ev.call v args loc
    else ev.callFree free receiver args (.memberAccess receiver.tag name) loc
  | receiver =>
    ev.callFree free receiver args (.memberAccess receiver.tag name) loc

def callExpr (callee : Expr) (args : List Expr) (loc : Location)
    (frame : FrameId) : Eval Value := do
  match callee with
  | .member object property _ =>
    let receiver ← ev.expr object frame
    let args ← ev.elementsFrom frame args #[]
    ev.callMember receiver property.text args.toList frame loc
  | callee =>
    let callee ← ev.expr callee frame
    let args ← ev.elementsFrom frame args #[]
    ev.call callee args.toList loc

end Evaluator

end Script
