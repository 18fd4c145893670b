import Script.Proofs.Eval.Balance
import Script.Proofs.Eval.Regions

/-!
# Maps and records stay proper

In an evaluation every step leaves a proper heap proper, and what is empty is
proper.  So at every point of a run, and between the programs of a session, the
entries of maps are under their keys and records have the fields of their structs.
-/

namespace Script

open Machine (Licensed Region)

namespace Machine

variable {limit : Nat} {kept : Array Nat} {l : Licence} {m m' : Machine}

theorem Silent.proper (hsilent : Silent m m') (hproper : m.heap.Proper) :
    m'.heap.Proper := by
  cases hsilent with
  | heap hstep => exact hstep.proper hproper
  | read | print | note => exact hproper

theorem Licensed.proper (hlicensed : Licensed limit kept l m m')
    (hproper : m.heap.Proper) : m'.heap.Proper := by
  induction hlicensed with
  | silent l hsilent => exact hsilent.proper hproper
  | widen _ _ ih => exact ih hproper
  | seq _ _ ihfirst ihsecond => exact ihsecond (ihfirst hproper)
  | frame l outer _ ih => exact ih hproper
  | call _ _ ih => exact ih hproper
  | loop _ ih => exact ih hproper
  | rest | pin | drop | update | introduce | declare | setUp => exact hproper

/-- The machines with a proper heap, which no run leaves. -/
def withProperHeap (limit : Nat) (kept : Array Nat) : Region limit kept where
  Holds := fun _ m => m.heap.Proper
  stays := fun hproper hlicensed => hlicensed.proper hproper
  narrows := fun _ hproper => hproper
  opens := fun _ hproper => hproper
  calls := fun hproper => hproper
  loops := fun hproper => hproper

end Machine

/-- The heap is proper when a task begins, and when it ends, however it ends. -/
def ProperHeap (_ : Task) (m : Machine) (o : Outcome Value) : Prop :=
  m.heap.Proper ∧ ∀ m', o.machine? = some m' → m'.heap.Proper

section

variable {settings : Settings} {m : Machine}

theorem throughout_properHeap (n : Nat) (task : Task) (hproper : m.heap.Proper) :
    Throughout settings ProperHeap n task m :=
  throughout_keptBy (R := Machine.withProperHeap _ #[]) (fun _ _ => Iff.rfl) n task hproper

theorem throughoutProgram_properHeap (n : Nat) (p : Program)
    (hproper : m.heap.Proper) :
    ThroughoutProgram settings ProperHeap n p m :=
  throughoutProgram_keptBy (R := Machine.withProperHeap _ #[]) (fun _ _ => Iff.rfl) n p
    hproper

end

theorem Machine.InSession.proper {settings : Settings} {m : Machine}
    (hm : m.InSession settings) : m.heap.Proper := by
  induction hm with
  | start input layout => exact Heap.proper_empty layout
  | take _ ih => exact ih
  | run _ hrun ih => exact (licensed_of_runSource #[] hrun).proper ih

/-- Between the programs of a session, and at every point of a run from a machine
with a proper heap, each entry of each map is under the key that its own key stands
for, so no two entries of a map have keys that stand for the same, and each record
has exactly the fields that its struct declares. -/
theorem heap_stays_proper (settings : Settings) :
    (∀ m : Machine, m.InSession settings → m.heap.Proper ∧
      ∀ cell, ∀ x ∈ (m.heap.entries cell).toList, ∀ y ∈ (m.heap.entries cell).toList,
        x.2.key.mapKey? = y.2.key.mapKey? → x = y) ∧
    ∀ (n : Nat) (m : Machine), m.heap.Proper →
      (∀ task, Throughout settings ProperHeap n task m) ∧
      ∀ p, ThroughoutProgram settings ProperHeap n p m := by
  constructor
  · intro m hm
    refine ⟨hm.proper, fun cell x hx y hy hsame => ?_⟩
    exact (hm.proper.keyed cell).eq_of_mapKey? hx hy hsame
  · intro n m hproper
    exact ⟨fun task => throughout_properHeap n task hproper,
      fun p => throughoutProgram_properHeap n p hproper⟩

/-- A map literal with one key twice has one entry. -/
theorem heap_stays_proper_repeatedKey :
    let loc := Location.unknown
    let literal : Expr :=
      .map [⟨.int 1 loc, .int 2 loc⟩, ⟨.int 1 loc, .int 3 loc⟩] loc
    (Machine.start "").InSession ⟨1, .standard⟩ ∧ ∃ m',
      evaluate ⟨1, .standard⟩ 3 (.expr literal Scope.Arena.root)
        (Machine.start "") = .done (.map 0) m' ∧
      (m'.heap.entries 0).size = 1 ∧ m'.heap.Proper := by
  intro loc literal
  have hm : (Machine.start "").InSession ⟨1, .standard⟩ := .start "" _
  obtain ⟨hsession, hruns⟩ := heap_stays_proper ⟨1, .standard⟩
  obtain ⟨htasks, -⟩ := hruns 3 (Machine.start "") (hsession _ hm).1
  have hproper := (htasks (.expr literal Scope.Arena.root)).1.2
  exact ⟨hm, _, rfl, rfl, hproper _ rfl⟩

end Script
