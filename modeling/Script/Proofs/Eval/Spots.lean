import Script.Proofs.Eval.References
import Script.Proofs.Scope.Backlog

/-!
# Spots of a machine

What a program can write to is the binding of a name in a frame, an item of an array, an
entry of a map or a field of a record.  A write changes what one of them has, and leaves
all others alone, whichever containers stand for each other or hold each other.
-/

namespace Script

open Scope (Arena Binding Bindings Frame FrameId find?)
open Std (ExtTreeMap)

/-- The binding of a name in a frame. -/
def Scope.Arena.binding? {α : Type} (a : Arena α) (frame : FrameId) (name : String) :
    Option (Binding α) :=
  (a.frame? frame).bind fun f => find? name f.bindings

/-- A frame without its bindings. -/
def Scope.Frame.bare {α : Type} (f : Frame α) : Frame α := { f with bindings := {} }

/-- What can be written to. -/
inductive Spot where
  | binding (frame : FrameId) (name : String)
  | element (cell position : Nat)
  | entry (cell : Nat) (key : MapKey)
  | field (cell : Nat) (name : String)

/-- What is in a spot. -/
inductive Content where
  | binding (b : Binding Value)
  | entry (e : MapEntry)
  | value (v : Value)

/-- The value that has been written to a spot. -/
def Content.written : Content → Value
  | binding b => b.value
  | entry e => e.value
  | value v => v

namespace Machine

/-- What a spot has, if it is there. -/
def at? (m : Machine) : Spot → Option Content
  | .binding frame name => (m.scopes.binding? frame name).map .binding
  | .element cell i => (m.heap.items cell)[i]?.map .value
  | .entry cell key => (m.heap.entries cell)[key]?.map .entry
  | .field cell name => (m.heap.instanceAt cell).fields[name]?.map .value

/-- The second machine has the content in the spot, and is the first one otherwise.  No
frames or containers have come or gone, and frames and records are what they were up to
their bindings and fields. -/
structure DiffersAt (m : Machine) (spot : Spot) (c : Content) (m' : Machine) : Prop where
  holds : m'.at? spot = some c
  others : ∀ other, other ≠ spot → m'.at? other = m.at? other
  constants : ∀ frame name, .binding frame name ≠ spot →
    m'.scopes.isLocalConstant frame name = m.scopes.isLocalConstant frame name
  frames : ∀ frame, (m'.scopes.frame? frame).map Frame.bare =
    (m.scopes.frame? frame).map Frame.bare
  arena : m'.scopes = { m.scopes with frames := m'.scopes.frames }
  refs : m'.heap.refs = m.heap.refs
  structs : ∀ cell, (m'.heap.instanceAt cell).struct = (m.heap.instanceAt cell).struct
  heap : m'.heap = { m.heap with
    arrays := m'.heap.arrays, maps := m'.heap.maps, records := m'.heap.records }
  rest : m' = { m with scopes := m'.scopes, heap := m'.heap }

variable {m : Machine}

/-! ### Bindings -/

/-- A frame whose bindings are changed under one name. -/
theorem differsAt_modifyFrame {owner : FrameId} {frame : Frame Value}
    (hframe : m.scopes.frame? owner = some frame) {name : String} {b : Binding Value}
    {change : Bindings Value → Bindings Value}
    (hself : find? name (change frame.bindings) = some b)
    (hothers : ∀ other, other ≠ name →
      find? other (change frame.bindings) = find? other frame.bindings)
    (hconstants : ∀ other, other ≠ name →
      (change frame.bindings).constants.contains other =
        frame.bindings.constants.contains other) :
    m.DiffersAt (.binding owner name) (.binding b) { m with
      scopes := m.scopes.modifyFrame owner fun f =>
        { f with bindings := change f.bindings } } where
  holds := by
    simp [at?, Arena.binding?, Arena.frame?_modifyFrame_self, hframe, hself]
  others := by
    intro other hother
    cases other with
    | binding id otherName =>
      by_cases hid : id = owner
      · subst hid
        have hname : otherName ≠ name := fun heq => hother (heq ▸ rfl)
        simp [at?, Arena.binding?, Arena.frame?_modifyFrame_self, hframe, hothers _ hname]
      · simp [at?, Arena.binding?, Arena.frame?_modifyFrame, hid]
    | element | entry | field => rfl
  constants := by
    intro id otherName hother
    by_cases hid : id = owner
    · subst hid
      have hname : otherName ≠ name := fun heq => hother (heq ▸ rfl)
      simp [Arena.isLocalConstant, Arena.frame?_modifyFrame_self, hframe,
        hconstants _ hname]
    · simp [Arena.isLocalConstant, Arena.frame?_modifyFrame, hid]
  frames := by
    intro id
    rw [Arena.frame?_modifyFrame]
    split
    · next hid =>
      rw [hid, Option.map_map]
      rfl
    · rfl
  arena := rfl
  refs := rfl
  structs := fun _ => rfl
  heap := rfl
  rest := rfl

/-- A name is bound in a frame. -/
theorem differsAt_bind {frame : FrameId} (hframe : (m.scopes.frame? frame).isSome)
    (b : Binding Value) :
    m.DiffersAt (.binding frame b.name) (.binding b)
      { m with scopes := m.scopes.bind frame b } := by
  obtain ⟨f, hf⟩ := Option.isSome_iff_exists.mp hframe
  exact differsAt_modifyFrame hf (Scope.find?_put_self b f.bindings)
    (fun _ hother => Scope.find?_put_of_ne hother f.bindings)
    fun _ hother => Scope.constants_put_of_ne hother f.bindings

/-- A name gets a new value where it is bound. -/
theorem differsAt_update {frame owner : FrameId} {name : String} {found : Binding Value}
    (hfound : m.scopes.resolve? frame name = some (owner, found)) (value : Value) :
    m.DiffersAt (.binding owner name) (.binding { found with value })
      { m with scopes := (m.scopes.update frame name value).2 } := by
  obtain ⟨f, hf, hb⟩ := Arena.frame?_of_resolveWithin hfound
  rw [Arena.update, hfound]
  refine differsAt_modifyFrame hf ?_
    (fun other hother => Scope.find?_rebind_of_ne hother value f.bindings) fun _ _ => rfl
  rw [Scope.find?_rebind_self, hb, Option.map_some]

/-! ### Parts of containers -/

theorem getD_modify {α : Type} {xs : Array α} {i : Nat} (hi : i < xs.size) (f : α → α)
    (j : Nat) (default : α) :
    (xs.modify i f).getD j default =
      if j = i then f (xs.getD i default) else xs.getD j default := by
  simp only [Array.getD_eq_getD_getElem?, Array.getElem?_modify]
  by_cases hj : j = i
  · subst hj
    simp [hi]
  · simp [hj, Ne.symm hj]

/-- An item of an array is replaced. -/
theorem differsAt_element {cell i : Nat} (hi : i < (m.heap.items cell).size)
    (value : Value) :
    m.DiffersAt (.element cell i) (.value value) { m with
      heap := m.heap.modifyArray cell (·.setIfInBounds i value) } := by
  have hcell : cell < m.heap.arrays.size := by
    by_contra hout
    simp [Heap.items, Array.getD, hout] at hi
  have hitems : ∀ other, (m.heap.modifyArray cell (·.setIfInBounds i value)).items other =
      if other = cell then (m.heap.items cell).setIfInBounds i value
      else m.heap.items other := fun other => getD_modify hcell _ other #[]
  refine ⟨?_, ?_, fun _ _ _ => rfl, fun _ => rfl, rfl, ?_, fun _ => rfl, rfl, rfl⟩
  · simp [at?, hitems, hi]
  · intro other hother
    cases other with
    | element otherCell j =>
      simp only [at?, hitems]
      split
      · next heq =>
        subst heq
        have hj : i ≠ j := fun heq => hother (heq ▸ rfl)
        rw [Array.getElem?_setIfInBounds_ne hj]
      · rfl
    | binding | entry | field => rfl
  · simp [Heap.refs, Heap.modifyArray]

/-- An entry of a map is stored. -/
theorem differsAt_entry {cell : Nat} (hcell : cell < m.heap.maps.size) (key : MapKey)
    (entry : MapEntry) :
    m.DiffersAt (.entry cell key) (.entry entry) { m with
      heap := m.heap.insertEntry cell key entry } := by
  have hentries : ∀ other, (m.heap.insertEntry cell key entry).entries other =
      if other = cell then (m.heap.entries cell).insert key entry
      else m.heap.entries other := fun other => getD_modify hcell _ other ∅
  refine ⟨?_, ?_, fun _ _ _ => rfl, fun _ => rfl, rfl, ?_, fun _ => rfl, rfl, rfl⟩
  · simp [at?, hentries]
  · intro other hother
    cases other with
    | entry otherCell otherKey =>
      simp only [at?, hentries]
      split
      · next heq =>
        subst heq
        have hkey : otherKey ≠ key := fun heq => hother (heq ▸ rfl)
        simp [ExtTreeMap.getElem?_insert, hkey.symm]
      · rfl
    | binding | element | field => rfl
  · simp [Heap.refs, Heap.insertEntry]

/-- A field of a record gets a value. -/
theorem differsAt_field {cell : Nat} {name : String}
    (hthere : name ∈ (m.heap.instanceAt cell).fields) (value : Value) :
    m.DiffersAt (.field cell name) (.value value) { m with
      heap := m.heap.setField cell name value } := by
  have hcell : cell < m.heap.records.size := by
    by_contra hout
    simp [Heap.instanceAt, Array.getD, hout, default, instInhabitedRecord.default]
      at hthere
  have hinstance : ∀ other, (m.heap.setField cell name value).instanceAt other =
      if other = cell then { m.heap.instanceAt cell with
        fields := (m.heap.instanceAt cell).fields.insert name value }
      else m.heap.instanceAt other := fun other => getD_modify hcell _ other default
  refine ⟨?_, ?_, fun _ _ _ => rfl, fun _ => rfl, rfl, ?_, ?_, rfl, rfl⟩
  · simp [at?, hinstance]
  · intro other hother
    cases other with
    | field otherCell otherName =>
      simp only [at?, hinstance]
      split
      · next heq =>
        subst heq
        have hname : otherName ≠ name := fun heq => hother (heq ▸ rfl)
        simp [ExtTreeMap.getElem?_insert, hname.symm]
      · rfl
    | binding | element | entry => rfl
  · simp [Heap.refs, Heap.setField]
  · intro other
    simp only [hinstance]
    split
    · next heq => rw [heq]
    · rfl

end Machine

end Script
