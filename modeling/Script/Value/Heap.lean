import Script.Value

/-!
# Heaps

Where the contents of arrays, maps and records are, and the methods of structs.
A place is never given back, so a new one is always different from all others.

The entries of a map have no order of their own.  The order in which they happen
to be in memory is a parameter of the heap.
-/

namespace Script

open Std (ExtTreeMap)

/-- A key of a map as it was written, with its value. -/
structure MapEntry where
  key : Value
  value : Value

/-- An instance of a struct. -/
structure Record where
  struct : StructDef
  fields : ExtTreeMap String Value
  deriving Inhabited

/-- Where in memory the entries of maps are: the place of each key of a map while
the map has a number of entries.  A key that is new to a map may move the others,
and nothing else moves them. -/
abbrev Layout : Type := (cell size : Nat) → MapKey → Nat

structure Heap where
  arrays : Array (Array Value) := #[]
  maps : Array (ExtTreeMap MapKey MapEntry) := #[]
  records : Array Record := #[]
  /-- The methods of each struct. -/
  methods : Array (ExtTreeMap String Closure) := #[]
  layout : Layout := fun _ _ _ => 0
  /-- How many functions and enumerations have been made. -/
  identities : Nat := 0
  deriving Inhabited

/-- A container in a heap. -/
inductive Ref where
  | array (cell : Nat)
  | map (cell : Nat)
  | record (cell : Nat)
  deriving DecidableEq, Repr

namespace Heap

def items (h : Heap) (cell : Nat) : Array Value := h.arrays.getD cell #[]

def entries (h : Heap) (cell : Nat) : ExtTreeMap MapKey MapEntry :=
  h.maps.getD cell ∅

/-- The entries of a map in the order in which they are in memory. -/
def storedEntries (h : Heap) (cell : Nat) : List (MapKey × MapEntry) :=
  let table := h.entries cell
  table.toList.mergeSort fun left right =>
    h.layout cell table.size left.1 ≤ h.layout cell table.size right.1

theorem mem_storedEntries {h : Heap} {cell : Nat} {key : MapKey} {entry : MapEntry} :
    (key, entry) ∈ h.storedEntries cell ↔ (h.entries cell)[key]? = some entry := by
  rw [storedEntries, List.mem_mergeSort, ExtTreeMap.mem_toList_iff_getElem?_eq_some]

def instanceAt (h : Heap) (cell : Nat) : Record := h.records.getD cell default

def methodsOf (h : Heap) (d : StructDef) : ExtTreeMap String Closure :=
  h.methods.getD d.id ∅

/-! ### New places -/

def newArray (h : Heap) (items : Array Value) : Value × Heap :=
  (.array h.arrays.size, { h with arrays := h.arrays.push items })

def newMap (h : Heap) (entries : ExtTreeMap MapKey MapEntry) : Value × Heap :=
  (.map h.maps.size, { h with maps := h.maps.push entries })

def newRecord (h : Heap) (r : Record) : Value × Heap :=
  (.record h.records.size, { h with records := h.records.push r })

def newStruct (h : Heap) (name : String) (fields : List String) :
    Value × Heap :=
  (.struct { id := h.methods.size, name, fields },
    { h with methods := h.methods.push ∅ })

/-- A number that no function and no enumeration has yet. -/
def newIdentity (h : Heap) : Nat × Heap :=
  (h.identities, { h with identities := h.identities + 1 })

/-- What a question to a heap gives: a value, or the items of an array that is
still to be made. -/
inductive Answer where
  | value (v : Value)
  | array (items : Array Value)

def take (h : Heap) : Answer → Value × Heap
  | .value v => (v, h)
  | .array items => h.newArray items

/-! ### Changes -/

def modifyArray (h : Heap) (cell : Nat) (f : Array Value → Array Value) : Heap :=
  { h with arrays := h.arrays.modify cell f }

def insertEntry (h : Heap) (cell : Nat) (key : MapKey) (entry : MapEntry) :
    Heap :=
  { h with maps := h.maps.modify cell (·.insert key entry) }

def setField (h : Heap) (cell : Nat) (name : String) (value : Value) : Heap :=
  { h with records := h.records.modify cell fun r =>
      { r with fields := r.fields.insert name value } }

def addMethod (h : Heap) (d : StructDef) (name : String) (f : Closure) : Heap :=
  { h with methods := h.methods.modify d.id (·.insert name f) }

/-! ### All containers -/

/-- Every container of the heap. -/
def refs (h : Heap) : List Ref :=
  (List.range h.arrays.size).map .array ++
    ((List.range h.maps.size).map .map ++
      (List.range h.records.size).map .record)

theorem array_mem_refs {h : Heap} {cell : Nat} {v : Value}
    (hmem : v ∈ (h.items cell).toList) : Ref.array cell ∈ h.refs := by
  by_cases hcell : cell < h.arrays.size
  · simp [refs, hcell]
  · simp [items, Array.getD, hcell] at hmem

theorem map_mem_refs {h : Heap} {cell : Nat} {key : MapKey} {entry : MapEntry}
    (hfind : (h.entries cell)[key]? = some entry) : Ref.map cell ∈ h.refs := by
  by_cases hcell : cell < h.maps.size
  · simp [refs, hcell]
  · simp [entries, Array.getD, hcell] at hfind

theorem record_mem_refs {h : Heap} {cell : Nat} {name : String} {v : Value}
    (hfind : (h.instanceAt cell).fields[name]? = some v) :
    Ref.record cell ∈ h.refs := by
  by_cases hcell : cell < h.records.size
  · simp [refs, hcell]
  · simp [instanceAt, Array.getD, hcell, default, instInhabitedRecord.default]
      at hfind

/-- How many of the `places` are not on a path. -/
def offPath {α : Type} [DecidableEq α] (places path : List α) : Nat :=
  (places.filter (· ∉ path)).length

/-- Each step to a new place leaves fewer places. -/
theorem offPath_cons_lt {α : Type} [DecidableEq α] {places path : List α}
    {place : α} (hplace : place ∈ places) (hnew : place ∉ path) :
    offPath places (place :: path) < offPath places path := by
  have hsplit : places.filter (· ∉ place :: path) =
      (places.filter (· ∉ path)).filter (· ≠ place) := by
    rw [List.filter_filter]
    apply List.filter_congr
    intro other _
    simp [not_or]
  rw [offPath, offPath, hsplit]
  apply List.length_filter_lt_length_iff_exists.mpr
  exact ⟨place, by simp [hplace, hnew], by simp⟩

end Heap

end Script
