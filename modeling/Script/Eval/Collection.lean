import Script.Eval.Evaluator
import Script.Value.Access

/-!
# Collections

Arrays, maps, records, and what is taken out of them.
-/

namespace Script

open Scope (FrameId)
open Std (ExtTreeMap)

namespace Evaluator

variable (ev : Evaluator)

/-- The values of a list of expressions, behind those there are already.  An
array that is spread gives all its items. -/
def elementsFrom (frame : FrameId) : List Expr → Array Value → Eval (Array Value)
  | [], values => return values
  | .spread e loc :: elements, values => do
    match ← ev.expr e frame with
    | .array cell =>
      let items ← Eval.read (·.heap.items cell)
      elementsFrom frame elements (values ++ items)
    | v => Eval.fail (.spread v.tag) loc
  | e :: elements, values => do
    let v ← ev.expr e frame
    elementsFrom frame elements (values.push v)

def arrayLiteral (elements : List Expr) (frame : FrameId) : Eval Value := do
  let items ← ev.elementsFrom frame elements #[]
  Eval.onHeap (·.newArray items)

def entriesFrom (frame : FrameId) :
    List Entry → ExtTreeMap MapKey MapEntry → Eval (ExtTreeMap MapKey MapEntry)
  | [], table => return table
  | ⟨keyExpr, valueExpr⟩ :: entries, table => do
    let key ← ev.expr keyExpr frame
    match key.mapKey? with
    | none => Eval.fail (.mapKey key.tag) keyExpr.loc
    | some id =>
      let value ← ev.expr valueExpr frame
      entriesFrom frame entries (table.insert id { key, value })

def mapLiteral (entries : List Entry) (frame : FrameId) : Eval Value := do
  let table ← ev.entriesFrom frame entries ∅
  Eval.onHeap (·.newMap table)

def fieldsFrom (frame : FrameId) (struct : StructDef) :
    List Field → ExtTreeMap String Value → Eval (ExtTreeMap String Value)
  | [], table => return table
  | ⟨name, valueExpr⟩ :: fields, table => do
    if table.contains name.text then
      let value ← ev.expr valueExpr frame
      fieldsFrom frame struct fields (table.insert name.text value)
    else
      Eval.fail (.propertyNotFound name.text struct.name) name.loc

/-- A new instance of a struct; a field that is not given is null. -/
def recordLiteral (struct : Name) (fields : List Field) (frame : FrameId) :
    Eval Value := do
  match ← Eval.lookup? frame struct.text with
  | some (.struct d) =>
    let blank := d.fields.map fun name => (name, Value.null)
    let fields ← ev.fieldsFrom frame d fields (ExtTreeMap.ofList blank)
    Eval.onHeap (·.newRecord { struct := d, fields })
  | _ => Eval.fail (.structNotFound struct.text) struct.loc

def index (left index : Expr) (loc : Location) (frame : FrameId) :
    Eval Value := do
  let container ← ev.expr left frame
  let index ← ev.expr index frame
  Eval.askHeap loc (·.element container index)

def slice (left : Expr) (start stop : Option Expr) (loc : Location)
    (frame : FrameId) : Eval Value := do
  let container ← ev.expr left frame
  let start ← ev.optional frame start
  let stop ← ev.optional frame stop
  let answer ← Eval.askHeap loc (·.slice container start stop)
  Eval.onHeap (·.take answer)

def member (object : Expr) (property : Name) (loc : Location)
    (frame : FrameId) : Eval Value := do
  let object ← ev.expr object frame
  Eval.askHeap loc (·.member object property.text)

def range (start stop : Expr) (loc : Location) (frame : FrameId) :
    Eval Value := do
  let start ← ev.expr start frame
  let stop ← ev.expr stop frame
  match start, stop with
  | .int a, .int b => return .range a b
  | start, stop =>
    Eval.fail (.range ("bounds must be integers, got " ++ start.tag ++
      " and " ++ stop.tag)) loc

end Evaluator

end Script
