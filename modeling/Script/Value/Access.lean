import Script.Diagnostic.Problem
import Script.Value.Heap
import Script.Value.Range

/-!
# Parts of values

Reading and writing the elements, entries and fields of values.  A write is
looked at first, which may fail, and then carried out, which may not.
-/

namespace Script.Heap

/-! ### Reading -/

/-- An index as a position among `size` items. -/
def position (index : Int64) (size : Nat) : Except Problem Nat :=
  if index < 0 then .error (.negativeIndex index)
  else
    let i := index.toInt.toNat
    if size ≤ i then .error (.indexOutOfBounds index size) else .ok i

/-- The entry of a map under a key, or null. -/
def entry (h : Heap) (cell : Nat) (key : MapKey) : Value :=
  match (h.entries cell)[key]? with
  | some e => e.value
  | none => .null

/-- `container[index]`. -/
def element (h : Heap) (container index : Value) : Except Problem Value :=
  match container, index with
  | .array cell, .int i =>
    let items := h.items cell
    (position i items.size).map fun i => items.getD i .null
  | .str text, .int i =>
    let cs := text.toList
    (position i cs.length).map fun i =>
      match cs[i]? with
      | some c => .char c
      | none => .null
  | .range start stop, .int i =>
    (position i (Range.size start stop)).map fun i =>
      .int (Range.nth start stop i)
  | .map cell, index =>
    match index.mapKey? with
    | some key => .ok (h.entry cell key)
    | none => .error (.mapKey index.tag)
  | .array _, index | .str _, index | .range .., index =>
    .error (.operator "[]" ("indices must be integers, got " ++ index.tag))
  | container, _ =>
    .error (.operator "[]"
      ("cannot index a value of type " ++ container.tag))

/-- `object.name`, where it is not called. -/
def member (h : Heap) (object : Value) (name : String) :
    Except Problem Value :=
  match object with
  | .map cell => .ok (h.entry cell (Value.textKey name))
  | .record cell =>
    let r := h.instanceAt cell
    match r.fields[name]? with
    | some value => .ok value
    | none =>
      if (h.methodsOf r.struct).contains name then
        .error (.detachedMethod name r.struct.name)
      else .error (.propertyNotFound name r.struct.name)
  | .enum d =>
    match d.variant? name with
    | some v => .ok (.variant v)
    | none => .error (.unknownVariant d.name name (d.variants.map (·.1)))
  | .variant v =>
    match name with
    | "value" => .ok (.int v.value)
    | "name" => .ok (.str v.name)
    | _ => .error (.memberAccess object.tag name)
  | object => .error (.memberAccess object.tag name)

/-- A bound of a slice, moved to the nearest position there is. -/
def sliceBound (size default : Nat) : Option Value → Except Problem Nat
  | none => .ok default
  | some (.int i) => .ok (min i.toInt.toNat size)
  | some v =>
    .error (.slice ("slice bounds must be integers, got " ++ v.tag))

/-- Both bounds of a slice; the second is not before the first. -/
def sliceBounds (size : Nat) (start stop : Option Value) :
    Except Problem (Nat × Nat) := do
  let start ← sliceBound size 0 start
  let stop ← sliceBound size size stop
  return (start, max stop start)

/-- `container[start:stop]`. -/
def slice (h : Heap) (container : Value) (start stop : Option Value) :
    Except Problem Answer :=
  match container with
  | .array cell =>
    let items := h.items cell
    (sliceBounds items.size start stop).map fun (start, stop) =>
      .array (items.extract start stop)
  | .str text =>
    let cs := text.toList
    (sliceBounds cs.length start stop).map fun (start, stop) =>
      .value (.str (String.ofList ((cs.drop start).take (stop - start))))
  | container =>
    .error (.slice ("cannot slice a value of type " ++ container.tag))

/-! ### Writing -/

/-- A part of a container that can be written. -/
inductive Part where
  | element (cell position : Nat)
  | entry (cell : Nat) (id : MapKey) (key : Value)
  | field (cell : Nat) (name : String)

/-- The part that `container[index]` stands for in an assignment. -/
def elementPart (h : Heap) (container index : Value) : Except Problem Part :=
  match container with
  | .array cell =>
    match index with
    | .int i => (position i (h.items cell).size).map (.element cell)
    | index =>
      .error (.operator "[]"
        ("array indices must be integers, got " ++ index.tag))
  | .map cell =>
    match index.mapKey? with
    | some id => .ok (.entry cell id index)
    | none => .error (.mapKey index.tag)
  | .str _ => .error (.assignment "string index")
  | container => .error (.assignment ("index of " ++ container.tag))

/-- The part that `object.name` stands for in an assignment. -/
def memberPart (h : Heap) (object : Value) (name : String) :
    Except Problem Part :=
  match object with
  | .record cell =>
    let r := h.instanceAt cell
    if r.fields.contains name then .ok (.field cell name)
    else .error (.propertyNotFound name r.struct.name)
  | .map cell => .ok (.entry cell (Value.textKey name) (.str name))
  | object => .error (.memberAccess object.tag name)

def store (h : Heap) (part : Part) (value : Value) : Heap :=
  match part with
  | .element cell i => h.modifyArray cell (·.setIfInBounds i value)
  | .entry cell id key => h.insertEntry cell id { key, value }
  | .field cell name => h.setField cell name value

end Script.Heap
