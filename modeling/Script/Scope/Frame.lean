import Std.Data.ExtTreeMap
import Std.Data.ExtTreeSet

/-!
# Frames

A frame holds the values of the names that one block or call has bound, and says
which of the names are constants.  It has no order among them.
-/

namespace Script.Scope

open Std (ExtTreeMap ExtTreeSet)

structure Binding (α : Type) where
  name : String
  value : α
  constant : Bool
  deriving DecidableEq, Repr

structure Bindings (α : Type) where
  values : ExtTreeMap String α := ∅
  constants : ExtTreeSet String := ∅
  deriving DecidableEq, Repr

variable {α : Type}

/-- The binding of a name. -/
def find? (name : String) (bindings : Bindings α) : Option (Binding α) :=
  bindings.values[name]?.map fun value =>
    { name, value, constant := bindings.constants.contains name }

/-- Binds a name anew, whatever it was bound to before. -/
def put (b : Binding α) (bindings : Bindings α) : Bindings α where
  values := bindings.values.insert b.name b.value
  constants :=
    if b.constant then bindings.constants.insert b.name
    else bindings.constants.erase b.name

/-- Changes the value of a bound name; a constant stays one. -/
def rebind (name : String) (value : α) (bindings : Bindings α) : Bindings α :=
  { bindings with values := bindings.values.modify name fun _ => value }

theorem find?_put_self (b : Binding α) (bindings : Bindings α) :
    find? b.name (put b bindings) = some b := by
  obtain ⟨name, value, constant⟩ := b
  cases constant <;> simp [find?, put]

theorem values_put_of_ne {b : Binding α} {name : String} (hne : name ≠ b.name)
    (bindings : Bindings α) :
    (put b bindings).values[name]? = bindings.values[name]? := by
  simp [put, ExtTreeMap.getElem?_insert, Ne.symm hne]

theorem constants_put_of_ne {b : Binding α} {name : String} (hne : name ≠ b.name)
    (bindings : Bindings α) :
    (put b bindings).constants.contains name =
      bindings.constants.contains name := by
  have hother : (compare b.name name == .eq) = false := by simp [Ne.symm hne]
  unfold put
  cases b.constant <;>
    simp [bne, hother, ExtTreeSet.contains_insert, ExtTreeSet.contains_erase]

theorem find?_put_of_ne {b : Binding α} {name : String} (hne : name ≠ b.name)
    (bindings : Bindings α) :
    find? name (put b bindings) = find? name bindings := by
  rw [find?, find?, values_put_of_ne hne, constants_put_of_ne hne]

theorem find?_rebind_self (name : String) (value : α) (bindings : Bindings α) :
    find? name (rebind name value bindings) =
      (find? name bindings).map fun b => { b with value } := by
  simp [find?, rebind, Function.comp_def]

theorem find?_rebind_of_ne {name other : String} (hne : other ≠ name)
    (value : α) (bindings : Bindings α) :
    find? other (rebind name value bindings) = find? other bindings := by
  simp [find?, rebind, ExtTreeMap.getElem?_modify, Ne.symm hne]

/-- A slot of an arena. -/
abbrev FrameId := Nat

/-- The name of a claim to a frame that someone outside the arena has. -/
abbrev HoldId := Nat

structure Frame (α : Type) where
  bindings : Bindings α := {}
  /-- Where names are looked up that are not bound here. -/
  outer : Option FrameId := none
  /-- A pinned frame may be needed after its block has ended. -/
  pinned : Bool := false
  /-- Set on a pinned frame when its block has ended. -/
  exited : Bool := false
  hold : Option HoldId := none
  deriving DecidableEq, Repr

end Script.Scope
