import Script.Diagnostic.Advisories
import Script.Diagnostic.Problem
import Script.Module
import Script.Scope.Arena
import Script.Value.Heap

/-!
# The machine

What a running program changes: its frames and its heap, what it has printed and
still has to read, and what has been noticed about it.  A computation on a
machine may leave early, and it may run out of the bound it was given.
-/

namespace Script

open Scope (Arena Binding FrameId)

/-- What stays the same during a run. -/
structure Settings where
  /-- How many calls may be under way at the same time. -/
  callLimit : Nat
  library : Library

structure Machine where
  scopes : Arena Value := .new
  heap : Heap := {}
  /-- What is still to be read. -/
  input : List Char := []
  /-- What has been printed. -/
  output : String := ""
  /-- The text of the program that is running. -/
  source : Option String := none
  /-- What has been noticed. -/
  advisories : Advisories := .empty
  callDepth : Nat := 0
  loopDepth : Nat := 0

/-- Ways to leave a computation before its end. -/
inductive Exit where
  | returned (value : Value)
  | broke
  | continued
  | failed (problem : Problem) (loc : Location)

/-- How a computation ends.  `exhausted` says that its bound was too small. -/
inductive Outcome (α : Type) where
  | done (value : α) (m : Machine)
  | left (exit : Exit) (m : Machine)
  | exhausted

def Eval (α : Type) : Type := Machine → Outcome α

namespace Eval

variable {α β : Type}

@[always_inline, inline]
def pure (value : α) : Eval α := fun m => .done value m

@[always_inline, inline]
def bind (c : Eval α) (f : α → Eval β) : Eval β := fun m =>
  match c m with
  | .done value m => f value m
  | .left exit m => .left exit m
  | .exhausted => .exhausted

instance : Monad Eval where
  pure := Eval.pure
  bind := Eval.bind

@[inline]
def leave (exit : Exit) : Eval α := fun m => .left exit m

@[inline]
def fail (problem : Problem) (loc : Location) : Eval α :=
  leave (.failed problem loc)

@[inline]
def outOfBound : Eval α := fun _ => .exhausted

/-- Looks at the machine. -/
@[inline]
def read (f : Machine → α) : Eval α := fun m => .done (f m) m

@[inline]
def modify (f : Machine → Machine) : Eval Unit := fun m => .done () (f m)

@[inline]
def onHeap (f : Heap → α × Heap) : Eval α := fun m =>
  let (value, heap) := f m.heap
  .done value { m with heap }

/-- A question to the heap; a problem is reported at the location. -/
@[inline]
def askHeap (loc : Location) (f : Heap → Except Problem α) : Eval α := fun m =>
  match f m.heap with
  | .ok value => .done value m
  | .error problem => .left (.failed problem loc) m

@[inline]
def onScopes (f : Arena Value → Arena Value) : Eval Unit := fun m =>
  .done () { m with scopes := f m.scopes }

/-! ### Names -/

def lookup? (frame : FrameId) (name : String) : Eval (Option Value) :=
  read fun m => m.scopes.get? frame name

def define (frame : FrameId) (name : String) (value : Value) : Eval Unit :=
  onScopes (·.set frame name value)

/-! ### What is noticed -/

/-- Notes something about a place in the program, once. -/
def advise (problem : Problem) (loc : Location) : Eval Unit := modify fun m =>
  { m with advisories := m.advisories.record m.source (problem.report loc) }

def adviseAll (problems : List Problem) (loc : Location) : Eval Unit :=
  match problems with
  | [] => Eval.pure ()
  | problem :: problems =>
    Eval.bind (advise problem loc) fun _ => adviseAll problems loc

/-! ### Reading and printing -/

def print (text : String) : Eval Unit := modify fun m =>
  { m with output := m.output ++ text }

/-- The next line of a text with its end, and what follows. -/
def splitLine : List Char → List Char × List Char
  | [] => ([], [])
  | '\n' :: rest => (['\n'], rest)
  | c :: rest =>
    let (line, rest) := splitLine rest
    (c :: line, rest)

/-- A line without the characters that end it. -/
def stripLineEnd (line : List Char) : List Char :=
  (line.reverse.dropWhile fun c => c == '\n' || c == '\r').reverse

/-- Reads a line; it is empty when there is nothing left. -/
def readLine : Eval String := fun m =>
  let (line, rest) := splitLine m.input
  .done (String.ofList (stripLineEnd line)) { m with input := rest }

/-! ### Regions

Each of these undoes on every way out what it did on the way in. -/

/-- Runs a computation and then a last step, however the computation ends. -/
@[inline]
def ending (c : Eval α) (last : Machine → Machine) : Eval α := fun m =>
  match c m with
  | .done value m => .done value (last m)
  | .left exit m => .left exit (last m)
  | .exhausted => .exhausted

/-- Runs a computation in a new frame inside `outer`. -/
@[inline]
def inChild (outer : FrameId) (c : FrameId → Eval α) : Eval α := fun m =>
  let (frame, scopes) := m.scopes.child outer
  ending (c frame) (fun m => { m with scopes := m.scopes.release frame })
    { m with scopes }

/-- Runs the body of a call, if no more calls than the limit are under way. -/
@[inline]
def inCall (limit : Nat) (name : String) (loc : Location) (c : Eval α) :
    Eval α := fun m =>
  if limit ≤ m.callDepth then .left (.failed (.recursionDepth limit name) loc) m
  else
    ending c (fun m => { m with callDepth := m.callDepth - 1 })
      { m with callDepth := m.callDepth + 1 }

/-- The number of loops inside one another that is worth a warning. -/
def deepNesting : Nat := 3

/-- Enters a loop. -/
def enterLoop (loc : Location) : Eval Unit := fun m =>
  let m := { m with loopDepth := m.loopDepth + 1 }
  if deepNesting ≤ m.loopDepth then advise (.nestedLoops m.loopDepth) loc m
  else .done () m

/-- Runs a loop. -/
@[inline]
def inLoop (loc : Location) (c : Eval α) : Eval α :=
  Eval.bind (enterLoop loc) fun _ =>
    ending c fun m => { m with loopDepth := m.loopDepth - 1 }

/-- Runs a computation, and another one if it fails. -/
@[inline]
def orElse (c : Eval α) (handler : Problem → Eval α) : Eval α := fun m =>
  match c m with
  | .left (.failed problem _) m => handler problem m
  | outcome => outcome

end Eval

end Script
