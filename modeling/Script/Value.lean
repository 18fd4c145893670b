import Script.Builtin
import Script.Hash.Fnv
import Script.Scope.Frame
import Script.Syntax.Tree

/-!
# Values

What a program computes with.  Numbers, texts, functions and definitions are
values in themselves.  An array, a map or a record is a place in a heap, so two
names can stand for the same one and both see a change.
-/

namespace Script

open Scope (FrameId)

/-- The kinds of values. -/
inductive Kind where
  | int | float | bool | null | str | char | byte | rune | array | map
  | function | arrow | builtin | struct | record | enum | variant | range
  deriving DecidableEq, Repr, Inhabited

/-- The name of a kind in reports about operators. -/
def Kind.tag : Kind → String
  | int => "INTEGER"
  | float => "FLOAT"
  | bool => "BOOLEAN"
  | null => "NULL"
  | str => "STRING"
  | char => "CHAR"
  | byte => "BYTE"
  | rune => "RUNE"
  | array => "ARRAY"
  | map => "HASH"
  | function => "FUNCTION"
  | arrow => "ARROW_FUNCTION"
  | builtin => "BUILTIN"
  | struct => "STRUCT"
  | record => "STRUCT_INSTANCE"
  | enum => "ENUM"
  | variant => "ENUM_VALUE"
  | range => "RANGE"

/-- A function together with the frame it was made in.  No two closures that
were made apart have the same `id`. -/
structure Closure where
  id : Nat
  code : Function
  frame : FrameId

/-- The name of a function in reports. -/
def Closure.name (f : Closure) : String := f.code.name.getD "<anonymous>"

/-- An arrow function together with the frame it was made in. -/
structure ArrowClosure where
  id : Nat
  params : List Name
  body : Expr
  frame : FrameId

/-- A declared struct; its methods are in the heap under its `id`. -/
structure StructDef where
  id : Nat
  name : String
  fields : List String
  deriving DecidableEq, Repr, Inhabited

/-- A value of an enumeration. -/
structure Variant where
  enum : String
  name : String
  value : Int64
  deriving DecidableEq, Repr, Inhabited

structure EnumDef where
  id : Nat
  name : String
  variants : List (String × Int64)
  deriving DecidableEq, Repr, Inhabited

def EnumDef.variant? (d : EnumDef) (name : String) : Option Variant :=
  (d.variants.lookup name).map fun value => { enum := d.name, name, value }

inductive Value where
  | int (n : Int64)
  | float (x : Float)
  | bool (b : Bool)
  | null
  | str (text : String)
  | char (c : Char)
  | byte (b : UInt8)
  | rune (c : Char)
  | array (cell : Nat)
  | map (cell : Nat)
  | function (f : Closure)
  | arrow (f : ArrowClosure)
  | builtin (f : Builtin)
  | struct (d : StructDef)
  | record (cell : Nat)
  | enum (d : EnumDef)
  | variant (v : Variant)
  | range (start stop : Int64)
  deriving Inhabited

/-- What identifies a key in a map: two keys with the same one are the same
key. -/
structure MapKey where
  kind : Kind
  code : UInt64
  deriving DecidableEq, Repr

namespace MapKey

open Std

/-- An order of the keys that tables can have; no program sees it. -/
def order : MapKey → MapKey → Ordering :=
  compareLex (compareOn (·.kind.ctorIdx)) (compareOn (·.code))

instance : Ord MapKey := ⟨order⟩

instance : TransOrd MapKey :=
  inferInstanceAs (TransCmp (compareLex _ _))

instance : LawfulEqOrd MapKey where
  eq_of_compare {left right} hsame := by
    obtain ⟨hkind, hcode⟩ := compareLex_eq_eq.mp hsame
    obtain ⟨kind, code⟩ := left
    obtain ⟨kind', code'⟩ := right
    have hkind := congrArg Kind.ofNat (LawfulEqOrd.eq_of_compare hkind)
    rw [Kind.ofNat_ctorIdx, Kind.ofNat_ctorIdx] at hkind
    rw [MapKey.mk.injEq]
    exact ⟨hkind, LawfulEqOrd.eq_of_compare hcode⟩

end MapKey

namespace Value

def kind : Value → Kind
  | int _ => .int
  | float _ => .float
  | bool _ => .bool
  | null => .null
  | str _ => .str
  | char _ => .char
  | byte _ => .byte
  | rune _ => .rune
  | array _ => .array
  | map _ => .map
  | function _ => .function
  | arrow _ => .arrow
  | builtin _ => .builtin
  | struct _ => .struct
  | record _ => .record
  | enum _ => .enum
  | variant _ => .variant
  | range _ _ => .range

def tag (v : Value) : String := v.kind.tag

def isNull : Value → Bool
  | null => true
  | _ => false

def isCallable : Value → Bool
  | function _ | arrow _ | builtin _ => true
  | _ => false

/-- The key that a value stands for in a map, if it can be one. -/
def mapKey? (v : Value) : Option MapKey :=
  let key (code : UInt64) : Option MapKey := some { kind := v.kind, code }
  match v with
  | int n => key n.toUInt64
  | bool b => key (if b then 1 else 0)
  | str text => key (Hash.ofText text)
  | char c | rune c => key (UInt64.ofNat c.toNat)
  | byte b => key b.toUInt64
  | variant v => key (Hash.ofText (v.enum ++ "." ++ v.name))
  | _ => none

/-- The key that a text stands for. -/
def textKey (text : String) : MapKey :=
  { kind := .str, code := Hash.ofText text }

@[simp]
theorem mapKey?_str (text : String) : mapKey? (str text) = some (textKey text) :=
  rfl

end Value

end Script
