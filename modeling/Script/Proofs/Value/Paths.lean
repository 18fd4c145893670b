import Script.Proofs.Value.Questions

/-!
# Paths through a heap

A container has parts: the items of an array at their positions, the values of a map
under their keys, and the values of a record in the fields of its struct.  A path of
positions, keys and field names leads from a value to a part of a part.  Containers may
share parts and may be parts of themselves, so a path may lead to where it has been.
-/

namespace Script

/-! ### Lists of answers -/

section

variable {α β γ : Type} {f : α → Option β}

/-- Where each item has an answer, the list has the list of answers. -/
theorem mapM_eq_some_of_forall {g : α → γ} {view : β → γ} {xs : List α}
    (hf : ∀ x ∈ xs, ∃ y, f x = some y ∧ g x = view y) :
    ∃ ys, xs.mapM f = some ys ∧ xs.map g = ys.map view := by
  induction xs with
  | nil => exact ⟨[], rfl, rfl⟩
  | cons x xs ih =>
    obtain ⟨y, hfirst, hview⟩ := hf x List.mem_cons_self
    obtain ⟨ys, hrest, hviews⟩ := ih fun x hx => hf x (List.mem_cons_of_mem _ hx)
    exact ⟨y :: ys, by simp [hfirst, hrest], by simp [hview, hviews]⟩

theorem mapM_eq_some_map {g : α → β} {xs : List α} (hf : ∀ x ∈ xs, f x = some (g x)) :
    xs.mapM f = some (xs.map g) := by
  induction xs with
  | nil => rfl
  | cons x xs ih =>
    simp [hf x List.mem_cons_self, ih fun x hx => hf x (List.mem_cons_of_mem _ hx)]

/-- The answers are those of the items. -/
theorem mem_of_mapM_eq_some {xs : List α} {ys : List β} (hys : xs.mapM f = some ys)
    {y : β} : y ∈ ys ↔ ∃ x ∈ xs, f x = some y := by
  induction xs generalizing ys with
  | nil =>
    obtain rfl : [] = ys := Option.some.inj hys
    simp
  | cons x xs ih =>
    rw [List.mapM_cons] at hys
    cases hfirst : f x with
    | none => rw [hfirst] at hys; cases hys
    | some y' =>
      cases hrest : xs.mapM f with
      | none => rw [hfirst, hrest] at hys; cases hys
      | some ys' =>
        rw [hfirst, hrest] at hys
        obtain rfl : y' :: ys' = ys := Option.some.inj hys
        simp [hfirst, ih hrest, eq_comm]

theorem isSome_mapM_iff {xs : List α} :
    (xs.mapM f).isSome ↔ ∀ x ∈ xs, (f x).isSome := by
  induction xs with
  | nil => simp
  | cons x xs ih =>
    rw [List.forall_mem_cons, ← ih, List.mapM_cons]
    cases f x <;> cases xs.mapM f <;> simp

end

/-! ### Values that are containers -/

/-- The container that a value stands for. -/
def Value.ref? : Value → Option Ref
  | .array cell => some (.array cell)
  | .map cell => some (.map cell)
  | .record cell => some (.record cell)
  | _ => none

namespace Ref

def value : Ref → Value
  | array cell => .array cell
  | map cell => .map cell
  | record cell => .record cell

@[simp]
theorem ref?_value (r : Ref) : r.value.ref? = some r := by
  cases r <;> rfl

end Ref

namespace Value

theorem eq_of_ref? {v : Value} {r : Ref} (hv : v.ref? = some r) : v = r.value := by
  cases v <;> cases hv <;> rfl

theorem ref?_eq_none_iff {v : Value} : v.ref? = none ↔ v.kind ∉ Heap.containers := by
  cases v <;> simp [ref?, kind, Heap.containers]

end Value

/-! ### Parts -/

/-- What a part of a container is selected by. -/
inductive Selector where
  | position (i : Nat)
  | key (id : MapKey)
  | field (name : String)
  deriving DecidableEq, Repr

namespace Heap

variable (h : Heap)

/-- The value of a field of a record; a field that is missing counts as null. -/
def fieldAt (cell : Nat) (name : String) : Value :=
  ((h.instanceAt cell).fields[name]?).getD .null

/-- The parts of a container in their order; those of a map as they are in memory. -/
def parts : Ref → List (Selector × Value)
  | .array cell => (h.items cell).toList.zipIdx.map fun (item, i) => (.position i, item)
  | .map cell => (h.storedEntries cell).map fun (id, entry) => (.key id, entry.value)
  | .record cell => (h.instanceAt cell).struct.fields.map fun name =>
      (.field name, h.fieldAt cell name)

section

variable {β : Type} (f : Value → β) (cell : Nat)

@[simp]
theorem map_parts_array :
    (h.parts (.array cell)).map (fun part => f part.2) = (h.items cell).toList.map f := by
  have hfst : (h.items cell).toList.zipIdx.map (fun pair => f pair.1) =
      ((h.items cell).toList.zipIdx.map Prod.fst).map f := List.map_map.symm
  rw [parts, List.map_map]
  exact hfst.trans (by rw [List.zipIdx_map_fst])

@[simp]
theorem map_parts_map :
    (h.parts (.map cell)).map (fun part => f part.2) =
      (h.storedEntries cell).map fun entry => f entry.2.value :=
  List.map_map

@[simp]
theorem map_parts_record :
    (h.parts (.record cell)).map (fun part => f part.2) =
      (h.instanceAt cell).struct.fields.map fun name => f (h.fieldAt cell name) :=
  List.map_map

end

/-- The path leads from the first value to the second one. -/
inductive Leads : Value → List Selector → Value → Prop where
  | here (v : Value) : Leads v [] v
  | through {v w u : Value} {r : Ref} {s : Selector} {path : List Selector}
    (hcontainer : v.ref? = some r) (hpart : (s, w) ∈ h.parts r)
    (hrest : Leads w path u) : Leads v (s :: path) u

variable {h}

theorem mem_parts_array {cell : Nat} {s : Selector} {v : Value} :
    (s, v) ∈ h.parts (.array cell) ↔
      ∃ i, s = .position i ∧ (h.items cell).toList[i]? = some v := by
  simp only [parts, List.mem_map, Prod.exists, Prod.mk.injEq, List.mk_mem_zipIdx_iff_getElem?]
  constructor
  · rintro ⟨item, i, hitem, rfl, rfl⟩
    exact ⟨i, rfl, hitem⟩
  · rintro ⟨i, rfl, hitem⟩
    exact ⟨v, i, hitem, rfl, rfl⟩

theorem mem_parts_map {cell : Nat} {s : Selector} {v : Value} :
    (s, v) ∈ h.parts (.map cell) ↔
      ∃ id entry, (h.entries cell)[id]? = some entry ∧ s = .key id ∧
        v = entry.value := by
  simp only [parts, List.mem_map, Prod.exists, Prod.mk.injEq, mem_storedEntries, eq_comm]

theorem mem_parts_record {cell : Nat} {s : Selector} {v : Value} :
    (s, v) ∈ h.parts (.record cell) ↔
      ∃ name ∈ (h.instanceAt cell).struct.fields, s = .field name ∧
        v = h.fieldAt cell name := by
  simp only [parts, List.mem_map, Prod.mk.injEq, eq_comm]

/-- Only the containers of the heap have parts. -/
theorem mem_refs_of_part {r : Ref} {part : Selector × Value} (hpart : part ∈ h.parts r) :
    r ∈ h.refs := by
  cases r with
  | array cell =>
    obtain ⟨⟨item, i⟩, hitem, -⟩ := List.mem_map.mp hpart
    exact array_mem_refs (List.fst_mem_of_mem_zipIdx hitem)
  | map cell =>
    obtain ⟨entry, hentry, -⟩ := List.mem_map.mp hpart
    exact map_mem_refs (mem_storedEntries.mp hentry)
  | record cell =>
    obtain ⟨name, hname, -⟩ := List.mem_map.mp hpart
    by_cases hcell : cell < h.records.size
    · simp [refs, hcell]
    · have hmissing : h.instanceAt cell = default := by
        simp [instanceAt, Array.getD, hcell]
      rw [hmissing] at hname
      cases hname

theorem offPath_nil {α : Type} [DecidableEq α] (places : List α) :
    offPath places [] = places.length := by
  simp [offPath]

/-- A part and its path, one step on. -/
theorem leads_part {v w : Value} {r : Ref} {s : Selector} (hcontainer : v.ref? = some r)
    (hpart : (s, w) ∈ h.parts r) : h.Leads v [s] w :=
  .through hcontainer hpart (.here w)

theorem Leads.trans {v w u : Value} {path path' : List Selector}
    (hfirst : h.Leads v path w) (hsecond : h.Leads w path' u) :
    h.Leads v (path ++ path') u := by
  induction hfirst with
  | here v => exact hsecond
  | through hcontainer hpart _ ih => exact .through hcontainer hpart (ih hsecond)

end Heap

end Script
