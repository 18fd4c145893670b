import Script.Builtin
import Script.Diagnostic.Problem
import Script.Value.Type

/-!
# Arguments of built-in functions

What is said about a wrong number of arguments, or one of the wrong type.
-/

namespace Script.Builtin

variable {α : Type}

def countText (n : Nat) : String :=
  if n = 1 then "1 argument" else toString n ++ " arguments"

/-- How many arguments a function takes. -/
inductive Arity where
  | exactly (n : Nat)
  | between (least most : Nat)
  | atLeast (n : Nat)

def Arity.text : Arity → String
  | exactly n => countText n
  | between least most => toString least ++ " to " ++ countText most
  | atLeast n => "at least " ++ countText n

def wrongCount (f : Builtin) (expected : Arity) (args : List Value) :
    Except Problem α :=
  .error (.invalidArgument f.name expected.text (countText args.length))

/-- Positions count from one. -/
def wrongType (h : Heap) (f : Builtin) (position : Nat) (expected : String)
    (got : Value) : Except Problem α :=
  .error (.argumentType f.name position expected (h.typeName got))

def stringArg (h : Heap) (f : Builtin) (position : Nat) :
    Value → Except Problem String
  | .str text => .ok text
  | v => wrongType h f position "string" v

def intArg (h : Heap) (f : Builtin) (position : Nat) :
    Value → Except Problem Int64
  | .int n => .ok n
  | v => wrongType h f position "int" v

/-- The items that an array has now. -/
def arrayArg (h : Heap) (f : Builtin) (position : Nat) :
    Value → Except Problem (Array Value)
  | .array cell => .ok (h.items cell)
  | v => wrongType h f position "array" v

def functionArg (h : Heap) (f : Builtin) (position : Nat) (v : Value) :
    Except Problem Value :=
  if v.isCallable then .ok v else wrongType h f position "function" v

def numberArg (h : Heap) (f : Builtin) (position : Nat) :
    Value → Except Problem Float
  | .int n => .ok n.toFloat
  | .float x => .ok x
  | v => wrongType h f position "int or float" v

/-- Answers of built-in functions. -/
abbrev Reply : Type := Except Problem Heap.Answer

def reply (v : Value) : Reply := .ok (.value v)

end Script.Builtin
