import Script.Value.Heap

/-!
# Types of values

The type that a value has by name, and which values a type annotation admits.
-/

namespace Script

/-- The types that need no declaration. -/
def baseTypes : List String :=
  ["int", "float", "string", "bool", "char", "byte", "rune", "array", "map",
    "any", "void"]

def isBaseType (name : String) : Bool := baseTypes.contains name

namespace Heap

/-- The name of the type of a value, as an annotation would have it. -/
def typeName (h : Heap) : Value → String
  | .int _ => "int"
  | .float _ => "float"
  | .bool _ => "bool"
  | .null => "null"
  | .str _ => "string"
  | .char _ => "char"
  | .byte _ => "byte"
  | .rune _ => "rune"
  | .array _ => "array"
  | .map _ => "map"
  | .function _ | .arrow _ => "function"
  | .builtin _ => "builtin"
  | .struct _ => "struct"
  | .record cell => (h.instanceAt cell).struct.name
  | .enum _ => "enum"
  | .variant v => v.enum
  | .range .. => "range"

/-- What counts as true: all but null, false, zero, and what is empty. -/
def truthy (h : Heap) : Value → Bool
  | .null => false
  | .bool b => b
  | .int n => n != 0
  | .float x => x != 0
  | .str text => !text.isEmpty
  | .array cell => !(h.items cell).isEmpty
  | .map cell => !(h.entries cell).isEmpty
  | _ => true

/-- Whether a value has the type of that name.  An integer is also a float, a
string of one character is also a character, and a rune may be given as a
character or a number. -/
def hasNamedType (h : Heap) (name : String) (v : Value) : Bool :=
  match name with
  | "any" => true
  | "int" => v.kind == .int
  | "float" => v.kind == .float || v.kind == .int
  | "string" => v.kind == .str
  | "bool" => v.kind == .bool
  | "char" =>
    match v with
    | .char _ => true
    | .str text => text.length == 1
    | _ => false
  | "byte" => v.kind == .byte
  | "rune" => v.kind == .rune || v.kind == .char || v.kind == .int
  | "array" => v.kind == .array
  | "map" => v.kind == .map
  | "void" => v.kind == .null
  | custom =>
    match v with
    | .record cell => (h.instanceAt cell).struct.name == custom
    | .variant v => v.enum == custom
    | _ => false

/-- Whether an annotation admits a value.  Every element of an array counts; of
a map it only counts that it is one. -/
def hasType (h : Heap) : TypeExpr → Value → Bool
  | .named name _, v => h.hasNamedType name v
  | .array element _, v =>
    match v with
    | .array cell => (h.items cell).all (h.hasType element)
    | _ => false
  | .map .., v => v.kind == .map

/-- The first element of an array that is not of the annotation's element type,
with its position. -/
def firstMismatch? (h : Heap) (type : TypeExpr) (v : Value) :
    Option (Nat × Value) :=
  match v, type.element? with
  | .array cell, some element =>
    let items := (h.items cell).toList
    match items.findIdx? (fun item => !h.hasType element item) with
    | some i => some (i, items.getD i .null)
    | none => none
  | _, _ => none

end Heap

end Script
