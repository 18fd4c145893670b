import Script.Eval.Evaluator
import Script.Syntax.Scan
import Script.Value.Range
import Script.Value.Text

/-!
# Loops

A loop over a collection walks over what the collection holds when the loop
starts, so its body may change the collection.  Each round has a frame of its
own.
-/

namespace Script

open Scope (FrameId)

/-- What a `for` loop walks over. -/
inductive Walk where
  /-- Items with their positions. -/
  | items (pairs : List (Value × Value))
  /-- Values with their keys. -/
  | entries (pairs : List (Value × Value))
  /-- The numbers of a range. -/
  | numbers (start stop : Int64)

namespace Heap

def numbered (items : List Value) : List (Value × Value) :=
  items.zipIdx.map fun (item, i) => (.int (Int64.ofNat i), item)

def walk (h : Heap) : Value → Except Problem Walk
  | .array cell => .ok (.items (numbered (h.items cell).toList))
  | .str text => .ok (.items (numbered (text.toList.map Value.char)))
  | .map cell =>
    .ok (.entries ((h.sortedEntries cell).map fun e => (e.key, e.value)))
  | .range start stop => .ok (.numbers start stop)
  | v => .error (.notIterable v.tag)

end Heap

namespace Eval

/-- Runs a loop body, and says whether the loop goes on. -/
@[inline]
def goesOn (body : Eval Value) : Eval Bool := fun m =>
  match body m with
  | .done _ m => .done true m
  | .left .continued m => .done true m
  | .left .broke m => .done false m
  | .left (.returned value) m => .left (.returned value) m
  | .left (.failed problem loc) m => .left (.failed problem loc) m
  | .exhausted => .exhausted

end Eval

/-- The names that a loop binds in each round, with their values. -/
inductive LoopNames where
  | one (name : String)
  | two (index value : String)

/-- Binds the names of a loop; one name alone gets the key of a map, and the
item of anything else. -/
def LoopNames.bind (names : LoopNames) (frame : FrameId) (keyed : Bool)
    (key value : Value) : Eval Unit :=
  match names with
  | one name => Eval.define frame name (if keyed then key else value)
  | two first second => do
    Eval.define frame first key
    Eval.define frame second value

namespace Evaluator

variable (ev : Evaluator)

/-- One round of a loop over a collection. -/
def roundWith (names : LoopNames) (body : Block) (frame : FrameId)
    (keyed : Bool) (key value : Value) : Eval Bool :=
  Eval.inChild frame fun scope => do
    names.bind scope keyed key value
    Eval.goesOn (ev.block body scope)

def walkPairs (names : LoopNames) (body : Block) (frame : FrameId)
    (keyed : Bool) : List (Value × Value) → Eval Value
  | [] => return .null
  | (key, value) :: pairs => do
    if ← ev.roundWith names body frame keyed key value then
      walkPairs names body frame keyed pairs
    else return .null

/-- Walks over the numbers of a range from a number on, which is at position `i`. -/
def walkNumbers (names : LoopNames) (body : Block) (frame : FrameId)
    (stop : Int64) (i : Nat) (number : Int64) : Eval Value :=
  if number = stop then return .null
  else do
    let position := Value.int (Int64.ofNat i)
    if ← ev.roundWith names body frame false position (.int number) then
      walkNumbers names body frame stop (i + 1) (Range.next number stop)
    else return .null
termination_by Range.size number stop
decreasing_by
  have hsize := Range.size_next ‹¬number = stop›
  omega

theorem walkNumbers_stop (names : LoopNames) (body : Block) (frame : FrameId)
    (stop : Int64) (i : Nat) :
    ev.walkNumbers names body frame stop i stop = pure .null := by
  rw [walkNumbers, if_pos rfl]

theorem walkNumbers_of_ne {number stop : Int64} (hne : number ≠ stop)
    (names : LoopNames) (body : Block) (frame : FrameId) (i : Nat) :
    ev.walkNumbers names body frame stop i number = (do
      let position := Value.int (Int64.ofNat i)
      if ← ev.roundWith names body frame false position (.int number) then
        ev.walkNumbers names body frame stop (i + 1) (Range.next number stop)
      else return .null) := by
  rw [walkNumbers, if_neg hne]

def forEach (names : LoopNames) (iterable : Expr) (body : Block)
    (frame : FrameId) : Eval Value := do
  let v ← ev.expr iterable frame
  match ← Eval.askHeap iterable.loc (·.walk v) with
  | .items pairs => ev.walkPairs names body frame false pairs
  | .entries pairs => ev.walkPairs names body frame true pairs
  | .numbers start stop =>
    ev.walkNumbers names body frame stop 0 start

/-- One round of a loop that binds no names. -/
def round (body : Block) (frame : FrameId) : Eval Bool :=
  Eval.inChild frame fun scope => Eval.goesOn (ev.block body scope)

/-- At most `n` rounds of a `while` loop. -/
def whileRounds (condition : Expr) (body : Block) (frame : FrameId) :
    Nat → Eval Value
  | 0 => Eval.outOfBound
  | n + 1 => do
    if ← ev.holds condition frame then
      if ← ev.round body frame then whileRounds condition body frame n
      else return .null
    else return .null

def isTrueLiteral : Expr → Bool
  | .bool value _ => value
  | _ => false

def whileLoop (condition : Expr) (body : Block) (loc : Location)
    (frame : FrameId) : Eval Value := do
  if isTrueLiteral condition && !body.canLeave then
    Eval.advise .infiniteLoop loc
  Eval.inLoop loc (ev.whileRounds condition body frame ev.rounds)

/-- Whether a counting loop goes into the next round; without a condition it
always does. -/
def continues (condition : Option Expr) (frame : FrameId) : Eval Bool :=
  match condition with
  | none => return true
  | some e => ev.holds e frame

/-- At most `n` rounds of a counting loop. -/
def countingRounds (condition update : Option Expr) (body : Block)
    (frame : FrameId) : Nat → Eval Value
  | 0 => Eval.outOfBound
  | n + 1 => do
    if ← ev.continues condition frame then
      if ← ev.round body frame then
        let _ ← ev.optional frame update
        countingRounds condition update body frame n
      else return .null
    else return .null

def countingLoop (start : Option Stmt) (condition update : Option Expr)
    (body : Block) (frame : FrameId) : Eval Value :=
  Eval.inChild frame fun scope => do
    match start with
    | some s => let _ ← ev.stmt s scope
    | none => pure ()
    ev.countingRounds condition update body scope ev.rounds

def forLoop (header : LoopHeader) (body : Block) (loc : Location)
    (frame : FrameId) : Eval Value :=
  Eval.inLoop loc <|
    match header with
    | .items item iterable => ev.forEach (.one item.text) iterable body frame
    | .pairs index value iterable =>
      ev.forEach (.two index.text value.text) iterable body frame
    | .counting start condition update =>
      ev.countingLoop start condition update body frame

end Evaluator

end Script
