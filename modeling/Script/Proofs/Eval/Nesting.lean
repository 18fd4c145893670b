import Script.Eval.Call
import Script.Eval.Loop

/-!
# What a computation does to a machine

A computation changes values, and it opens frames, calls and loops.  Whatever it
opens it closes again, the last one first, also when it leaves early.  `Nested`
says so of the machines before and after, and `Nests` of a computation.
-/

namespace Script

open Scope (Arena Binding FrameId HoldId)

/-- The machine that a computation leaves behind, if its bound was not too
small. -/
def Outcome.machine? {α : Type} : Outcome α → Option Machine
  | .done _ m => some m
  | .left _ m => some m
  | .exhausted => none

namespace Machine

/-- A change that neither opens nor closes anything. -/
inductive Change : Machine → Machine → Prop where
  | heap (m : Machine) (heap : Heap) : Change m { m with heap }
  | read (m : Machine) (input : List Char) : Change m { m with input }
  | print (m : Machine) (output : String) : Change m { m with output }
  | note (m : Machine) (advisories : Advisories) :
    Change m { m with advisories }
  | bind (m : Machine) (frame : FrameId) (b : Binding Value) :
    Change m { m with scopes := m.scopes.bind frame b }
  | update (m : Machine) (frame : FrameId) (name : String) (value : Value) :
    Change m { m with scopes := (m.scopes.update frame name value).2 }
  | pin (m : Machine) (frame : FrameId) :
    Change m { m with scopes := (m.scopes.pin frame).2 }
  | drop (m : Machine) (hold : HoldId) :
    Change m { m with scopes := m.scopes.drop hold }

def openFrame (m : Machine) (outer : FrameId) : Machine :=
  { m with scopes := (m.scopes.child outer).2 }

def closeFrame (m : Machine) (frame : FrameId) : Machine :=
  { m with scopes := m.scopes.release frame }

def openCall (m : Machine) : Machine := { m with callDepth := m.callDepth + 1 }

def closeCall (m : Machine) : Machine := { m with callDepth := m.callDepth - 1 }

def openLoop (m : Machine) : Machine := { m with loopDepth := m.loopDepth + 1 }

def closeLoop (m : Machine) : Machine := { m with loopDepth := m.loopDepth - 1 }

/-- The second machine comes from the first by changes and by frames, calls and
loops that are opened and closed in brackets.  A call is opened only below the
limit. -/
inductive Nested (limit : Nat) : Machine → Machine → Prop where
  | rest (m : Machine) : Nested limit m m
  | change {m m' : Machine} (hchange : Change m m') : Nested limit m m'
  | seq {m m' m'' : Machine} (hfirst : Nested limit m m')
      (hsecond : Nested limit m' m'') : Nested limit m m''
  | frame {m m' : Machine} (outer : FrameId)
      (hinner : Nested limit (m.openFrame outer) m') :
      Nested limit m (m'.closeFrame (m.scopes.child outer).1)
  | call {m m' : Machine} (hlimit : m.callDepth < limit)
      (hinner : Nested limit m.openCall m') : Nested limit m m'.closeCall
  | loop {m m' : Machine} (hinner : Nested limit m.openLoop m') :
      Nested limit m m'.closeLoop

end Machine

open Machine (Nested Change)

namespace Eval

variable {α β : Type} {limit : Nat}

/-- Whatever a computation opens it closes again, however it ends. -/
def Nests (limit : Nat) (c : Eval α) : Prop :=
  ∀ m m', (c m).machine? = some m' → Nested limit m m'

theorem machine?_bind {c : Eval α} {f : α → Eval β} {m m' : Machine}
    (hend : ((c >>= f) m).machine? = some m') :
    (c m).machine? = some m' ∨
      ∃ value between, (c m).machine? = some between ∧
        (f value between).machine? = some m' := by
  change (match c m with
    | .done value m => f value m
    | .left exit m => .left exit m
    | .exhausted => .exhausted : Outcome β).machine? = some m' at hend
  split at hend
  · next value between hfirst => exact Or.inr ⟨value, between, by rw [hfirst]; rfl, hend⟩
  · next exit between hfirst => exact Or.inl (by rw [hfirst]; exact hend)
  · cases hend

theorem machine?_ending (c : Eval α) (last : Machine → Machine) (m : Machine) :
    (ending c last m).machine? = (c m).machine?.map last := by
  unfold ending
  split <;> simp_all [Outcome.machine?]

end Eval

end Script
