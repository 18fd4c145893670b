import Script.Diagnostic.Problem
import Script.Proofs.Scope.Mapping
import Script.Value.Access
import Script.Value.Operator

/-!
# Other code in the same values

Values carry code: the functions and the bodies of arrow functions.  A recoding
puts other code in its place and leaves everything else as it is, so that what is
asked of values has the same answer before and after.  It also says what becomes
of a location and of the report that a call is refused.
-/

namespace Script

open Scope (Arena Binding Frame FrameId)
open Std (ExtTreeMap TransOrd LawfulEqOrd)

/-- Other code for functions and arrow functions, with the same names of functions and
parameters, since messages show these. -/
structure Recoding where
  loc : Location → Location
  function : Function → Function
  params : List Name → List Name
  body : Expr → Expr
  /-- What becomes of the report that there are too many calls. -/
  refusal : Nat → String → Problem
  function_name : ∀ f, (function f).name = f.name
  function_params : ∀ f,
    (function f).params.names.map (·.text) = f.params.names.map (·.text)
  params_text : ∀ names, (params names).map (·.text) = names.map (·.text)

/-- What a recoding acts on. -/
class Recodable (α : Type) where
  recode : Recoding → α → α

export Recodable (recode)

/-- Types that have neither code nor locations in them. -/
class Codeless (α : Type) : Prop

instance {α : Type} [Codeless α] : Recodable α := ⟨fun _ x => x⟩

instance : Codeless Unit where
instance : Codeless Bool where
instance : Codeless Nat where
instance : Codeless Int64 where
instance : Codeless String where
instance : Codeless MapKey where
instance : Codeless StructDef where

/-- So a recoding stops at whatever has no code in it. -/
@[simp]
theorem recode_codeless {α : Type} [Codeless α] (ρ : Recoding) (x : α) :
    recode ρ x = x := rfl

section

variable {α β : Type} [Recodable α] [Recodable β]

/-- Collections are recoded item by item. -/
instance : Recodable (List α) := ⟨fun ρ => List.map (recode ρ)⟩
instance : Recodable (Array α) := ⟨fun ρ => Array.map (recode ρ)⟩
instance : Recodable (Option α) := ⟨fun ρ => Option.map (recode ρ)⟩
instance : Recodable (α × β) := ⟨fun ρ => Prod.map (recode ρ) (recode ρ)⟩

/-- The keys of a table have no code, so only its values are recoded. -/
instance {κ : Type} [Ord κ] : Recodable (ExtTreeMap κ α) :=
  ⟨fun ρ => ExtTreeMap.map fun _ => recode ρ⟩

end

/-! ### Values and heaps -/

/-- The frame of a function and its number stay. -/
def recodeClosure (ρ : Recoding) (f : Closure) : Closure :=
  { f with code := ρ.function f.code }

def recodeArrow (ρ : Recoding) (f : ArrowClosure) : ArrowClosure :=
  { f with params := ρ.params f.params, body := ρ.body f.body }

/-- Arrays, maps and records are places in a heap, so a value that is one of them stays.
-/
def recodeValue (ρ : Recoding) : Value → Value
  | .function f => .function (recodeClosure ρ f)
  | .arrow f => .arrow (recodeArrow ρ f)
  | v => v

instance : Recodable Closure := ⟨recodeClosure⟩
instance : Recodable ArrowClosure := ⟨recodeArrow⟩
instance : Recodable Value := ⟨recodeValue⟩

instance : Recodable MapEntry :=
  ⟨fun ρ e => { key := recode ρ e.key, value := recode ρ e.value }⟩

instance : Recodable Record :=
  ⟨fun ρ r => { struct := r.struct, fields := recode ρ r.fields }⟩

/-- A heap is recoded place by place, and its layout is about keys only. -/
instance : Recodable Heap :=
  ⟨fun ρ h => {
    arrays := recode ρ h.arrays
    maps := recode ρ h.maps
    records := recode ρ h.records
    methods := recode ρ h.methods
    layout := h.layout
    identities := h.identities }⟩

/-- An arena is recoded binding by binding. -/
instance : Recodable (Arena Value) := ⟨fun ρ a => a.map (recode ρ)⟩

/-! ### Answers of a heap -/

/-- No other report can differ between the two sides. -/
def recodeProblem (ρ : Recoding) : Problem → Problem
  | .recursionDepth limit name => ρ.refusal limit name
  | p => p

instance : Recodable Problem := ⟨recodeProblem⟩

/-- What is asked of a heap has an answer or a problem, and either is recoded. -/
def recodeExcept {α : Type} [Recodable α] (ρ : Recoding) :
    Except Problem α → Except Problem α
  | .ok value => .ok (recode ρ value)
  | .error p => .error (recode ρ p)

def recodeAnswer (ρ : Recoding) : Heap.Answer → Heap.Answer
  | .value v => .value (recode ρ v)
  | .array items => .array (recode ρ items)

/-- Of the parts of containers only the entry of a map has a value in it, its key. -/
def recodePart (ρ : Recoding) : Heap.Part → Heap.Part
  | .element cell i => .element cell i
  | .entry cell id key => .entry cell id (recode ρ key)
  | .field cell name => .field cell name

instance {α : Type} [Recodable α] : Recodable (Except Problem α) :=
  ⟨recodeExcept⟩

instance : Recodable Heap.Answer := ⟨recodeAnswer⟩
instance : Recodable Heap.Part := ⟨recodePart⟩

instance : Recodable Computed :=
  ⟨fun ρ c => { c with answer := recode ρ c.answer }⟩

section

variable {α β : Type} [Recodable α] [Recodable β] (ρ : Recoding)

/-! ### Collections -/

@[simp]
theorem recode_nil : recode ρ ([] : List α) = [] := rfl

@[simp]
theorem recode_cons (x : α) (xs : List α) :
    recode ρ (x :: xs) = recode ρ x :: recode ρ xs := rfl

/-- The instance in the words of the library, for lemmas about lists. -/
theorem recode_list (xs : List α) : recode ρ xs = xs.map (recode ρ) := rfl

theorem recode_array (xs : Array α) : recode ρ xs = xs.map (recode ρ) := rfl

@[simp]
theorem recode_none : recode ρ (none : Option α) = none := rfl

@[simp]
theorem recode_some (x : α) : recode ρ (some x) = some (recode ρ x) := rfl

theorem recode_option (x : Option α) : recode ρ x = x.map (recode ρ) := rfl

@[simp]
theorem recode_pair (x : α) (y : β) :
    recode ρ (x, y) = (recode ρ x, recode ρ y) := rfl

/-- Items can be recoded before or after they are listed. -/
@[simp]
theorem recode_toList (xs : Array α) :
    (recode ρ xs).toList = recode ρ xs.toList := by
  simp [recode_array, recode_list]

/-- A recoding neither adds nor drops an item. -/
@[simp]
theorem size_recode (xs : Array α) : (recode ρ xs).size = xs.size :=
  Array.size_map

@[simp]
theorem length_recode (xs : List α) : (recode ρ xs).length = xs.length :=
  List.length_map _

/-- A default is to be recoded too. -/
theorem option_getD_recode (x : Option α) (default : α) :
    (recode ρ x).getD (recode ρ default) = recode ρ (x.getD default) := by
  cases x <;> rfl

@[simp]
theorem getElem?_recode (xs : List α) (i : Nat) :
    (recode ρ xs)[i]? = recode ρ xs[i]? :=
  List.getElem?_map

/-- The item at an index that is not there is the default on both sides. -/
theorem getD_recode (xs : Array α) (i : Nat) (default : α) :
    (recode ρ xs).getD i (recode ρ default) = recode ρ (xs.getD i default) := by
  by_cases hi : i < xs.size <;> simp [recode_array, Array.getD, hi]

/-- The last item is recoded like any other. -/
theorem back?_recode (xs : Array α) : (recode ρ xs).back? = recode ρ xs.back? :=
  Array.back?_map

/-- A change of one item that has a counterpart for the recoded items. -/
theorem modify_recode {f g : α → α} (hfg : ∀ x, g (recode ρ x) = recode ρ (f x))
    (xs : Array α) (i : Nat) :
    (recode ρ xs).modify i g = recode ρ (xs.modify i f) := by
  apply Array.ext
  · simp
  · intro j hj hj'
    simp only [recode_array, Array.getElem_modify, Array.getElem_map]
    split <;> simp [hfg]

/-! ### Tables

Keys have no code in them, so a recoded table has the same ones. -/

variable {κ : Type} [Ord κ] [TransOrd κ]

@[simp]
theorem size_table_recode (table : ExtTreeMap κ α) :
    (recode ρ table).size = table.size :=
  ExtTreeMap.size_map

/-- The entries come in the order of the keys, which stays the same. -/
@[simp]
theorem entries_toList_recode [Codeless κ] (table : ExtTreeMap κ α) :
    (recode ρ table).toList = recode ρ table.toList :=
  ExtTreeMap.toList_map

variable [LawfulEqOrd κ]

/-- A key finds the recoded value. -/
@[simp]
theorem lookup_recode (key : κ) (table : ExtTreeMap κ α) :
    (recode ρ table)[key]? = recode ρ table[key]? :=
  ExtTreeMap.getElem?_map

/-- Whether a key is there does not depend on its value. -/
@[simp]
theorem contains_recode (key : κ) (table : ExtTreeMap κ α) :
    (recode ρ table).contains key = table.contains key := by
  rw [ExtTreeMap.contains_eq_isSome_getElem?, ExtTreeMap.contains_eq_isSome_getElem?,
    lookup_recode, recode_option, Option.isSome_map]

theorem insert_recode (key : κ) (value : α) (table : ExtTreeMap κ α) :
    (recode ρ table).insert key (recode ρ value) =
      recode ρ (table.insert key value) :=
  (Scope.map_insert (recode ρ) key value table).symm

/-- Keys of a list are inserted one after another, and a later value wins on both sides.
-/
theorem insertMany_recode [Codeless κ] (entries : List (κ × α))
    (table : ExtTreeMap κ α) :
    (recode ρ table).insertMany (recode ρ entries) =
      recode ρ (table.insertMany entries) := by
  induction entries generalizing table with
  | nil => simp
  | cons entry entries ih =>
    obtain ⟨key, value⟩ := entry
    rw [recode_cons, recode_pair, recode_codeless ρ key, ExtTreeMap.insertMany_cons,
      ExtTreeMap.insertMany_cons, insert_recode, ih]

theorem ofList_recode [Codeless κ] (entries : List (κ × α)) :
    ExtTreeMap.ofList (recode ρ entries) = recode ρ (ExtTreeMap.ofList entries) := by
  rw [ExtTreeMap.ofList_eq_insertMany_empty, ExtTreeMap.ofList_eq_insertMany_empty,
    ← insertMany_recode]
  rfl

end

/-! ### Values -/

namespace Value

variable (ρ : Recoding) (v : Value)

/-- What a value is stays, and with it all that only asks for that. -/
@[simp]
theorem kind_recode : (recode ρ v).kind = v.kind := by cases v <;> rfl

@[simp]
theorem tag_recode : (recode ρ v).tag = v.tag :=
  congrArg Kind.tag (kind_recode ρ v)

@[simp]
theorem isNull_recode : (recode ρ v).isNull = v.isNull := by cases v <;> rfl

@[simp]
theorem isCallable_recode : (recode ρ v).isCallable = v.isCallable := by
  cases v <;> rfl

/-- No function can be the key of a map. -/
@[simp]
theorem mapKey?_recode : (recode ρ v).mapKey? = v.mapKey? := by cases v <;> rfl

@[simp]
theorem recode_null : recode ρ Value.null = .null := rfl

end Value

/-! ### The contents of a heap -/

namespace Heap

variable (ρ : Recoding) (h : Heap)

/-- A place that is not there has no items on either side. -/
@[simp]
theorem items_recode (cell : Nat) :
    (recode ρ h).items cell = recode ρ (h.items cell) := by
  have hempty : recode ρ (#[] : Array Value) = #[] := Array.map_empty
  have hitems := getD_recode ρ h.arrays cell #[]
  rwa [hempty] at hitems

@[simp]
theorem entries_recode (cell : Nat) :
    (recode ρ h).entries cell = recode ρ (h.entries cell) :=
  getD_recode ρ h.maps cell ∅

/-- The record at a place that is not there has no code in it. -/
@[simp]
theorem instanceAt_recode (cell : Nat) :
    (recode ρ h).instanceAt cell = recode ρ (h.instanceAt cell) :=
  getD_recode ρ h.records cell default

/-- Methods are functions, so their code is replaced as well. -/
@[simp]
theorem methodsOf_recode (d : StructDef) :
    (recode ρ h).methodsOf d = recode ρ (h.methodsOf d) :=
  getD_recode ρ h.methods d.id ∅

@[simp]
theorem struct_recode (r : Record) : (recode ρ r).struct = r.struct := rfl

@[simp]
theorem fields_recode (r : Record) : (recode ρ r).fields = recode ρ r.fields :=
  rfl

@[simp]
theorem key_recode (e : MapEntry) : (recode ρ e).key = recode ρ e.key := rfl

/-! ### Changes of a heap -/

/-- A heap with one more of something is recoded place by place. -/
theorem push_recode {α : Type} [Recodable α] (xs : Array α) (x : α) :
    (recode ρ xs).push (recode ρ x) = recode ρ (xs.push x) := by
  simp [recode_array]

/-- An empty heap has nothing to recode, whatever its layout. -/
theorem recode_empty (layout : Layout) :
    recode ρ ({ layout } : Heap) = { layout } := by
  change Heap.mk (Array.map _ #[]) (Array.map _ #[]) (Array.map _ #[])
    (Array.map _ #[]) layout 0 = _
  simp only [Array.map_empty]

/-- The new array gets the same place on both sides. -/
theorem newArray_recode (items : Array Value) :
    (recode ρ h).newArray (recode ρ items) = recode ρ (h.newArray items) := by
  refine Prod.ext ?_ ?_
  · exact congrArg Value.array (size_recode ρ h.arrays)
  · exact congrArg (fun arrays => { recode ρ h with arrays })
      (push_recode ρ h.arrays items)

theorem newMap_recode (entries : ExtTreeMap MapKey MapEntry) :
    (recode ρ h).newMap (recode ρ entries) = recode ρ (h.newMap entries) := by
  refine Prod.ext ?_ ?_
  · exact congrArg Value.map (size_recode ρ h.maps)
  · exact congrArg (fun maps => { recode ρ h with maps })
      (push_recode ρ h.maps entries)

theorem newRecord_recode (r : Record) :
    (recode ρ h).newRecord (recode ρ r) = recode ρ (h.newRecord r) := by
  refine Prod.ext ?_ ?_
  · exact congrArg Value.record (size_recode ρ h.records)
  · exact congrArg (fun records => { recode ρ h with records })
      (push_recode ρ h.records r)

/-- The number of a struct is that of its methods, of which there are as many. -/
theorem newStruct_recode (name : String) (fields : List String) :
    (recode ρ h).newStruct name fields = recode ρ (h.newStruct name fields) := by
  refine Prod.ext ?_ ?_
  · exact congrArg (fun id => Value.struct { id, name, fields })
      (size_recode ρ h.methods)
  · exact congrArg (fun methods => { recode ρ h with methods })
      (push_recode ρ h.methods ∅)

/-- Functions are numbered alike. -/
theorem newIdentity_recode :
    (recode ρ h).newIdentity = recode ρ h.newIdentity := rfl

/-- An answer is taken as it is, or it becomes a new array. -/
theorem take_recode (a : Answer) :
    (recode ρ h).take (recode ρ a) = recode ρ (h.take a) := by
  cases a with
  | value v => rfl
  | array items => exact newArray_recode ρ h items

/-- A change of an array that has a counterpart for the recoded items. -/
theorem modifyArray_recode (cell : Nat) {f g : Array Value → Array Value}
    (hfg : ∀ items, g (recode ρ items) = recode ρ (f items)) :
    (recode ρ h).modifyArray cell g = recode ρ (h.modifyArray cell f) :=
  congrArg (fun arrays => { recode ρ h with arrays })
    (modify_recode ρ hfg h.arrays cell)

/-- A later method of the same name takes the place of the earlier one on both sides. -/
theorem addMethod_recode (d : StructDef) (name : String) (f : Closure) :
    (recode ρ h).addMethod d name (recode ρ f) =
      recode ρ (h.addMethod d name f) :=
  congrArg (fun methods => { recode ρ h with methods })
    (modify_recode ρ (f := (·.insert name f)) (g := (·.insert name (recode ρ f)))
      (insert_recode ρ name f) h.methods d.id)

/-- Every part that can be written is in one container, so each case is a change at one
place. -/
theorem store_recode (part : Part) (v : Value) :
    (recode ρ h).store (recode ρ part) (recode ρ v) =
      recode ρ (h.store part v) := by
  cases part with
  | element cell i =>
    exact modifyArray_recode ρ h cell (f := (·.setIfInBounds i v))
      (g := (·.setIfInBounds i (recode ρ v))) fun items => by
        simp [recode_array, Array.map_setIfInBounds]
  | entry cell id key =>
    exact congrArg (fun maps => { recode ρ h with maps })
      (modify_recode ρ (f := (·.insert id (MapEntry.mk key v)))
        (g := (·.insert id (recode ρ (MapEntry.mk key v))))
        (insert_recode ρ id (MapEntry.mk key v)) h.maps cell)
  | field cell name =>
    exact congrArg (fun records => { recode ρ h with records })
      (modify_recode ρ (f := fun r => { r with fields := r.fields.insert name v })
        (g := fun r => { r with fields := r.fields.insert name (recode ρ v) })
        (fun r => congrArg (Record.mk r.struct)
          (insert_recode ρ name v r.fields)) h.records cell)

end Heap

/-! ### Recodings that change nothing -/

/-- The recoding leaves everything of a type as it is. -/
class Fixes (ρ : Recoding) (α : Type) [Recodable α] : Prop where
  recode_eq (x : α) : recode ρ x = x

namespace Fixes

variable {ρ : Recoding} {α β : Type} [Recodable α] [Recodable β]

/-- What has no code in it is fixed by all recodings. -/
instance {α : Type} [Codeless α] : Fixes ρ α := ⟨fun _ => rfl⟩

/-- A recoding that fixes the items fixes the collection. -/
instance [Fixes ρ α] : Fixes ρ (List α) where
  recode_eq xs := by
    rw [recode_list, funext (Fixes.recode_eq (ρ := ρ) (α := α))]
    exact List.map_id xs

instance [Fixes ρ α] : Fixes ρ (Array α) where
  recode_eq xs := by
    rw [recode_array, funext (Fixes.recode_eq (ρ := ρ) (α := α))]
    exact Array.map_id xs

instance [Fixes ρ α] : Fixes ρ (Option α) where
  recode_eq x := by
    rw [recode_option, funext (Fixes.recode_eq (ρ := ρ) (α := α))]
    exact Option.map_id_apply

instance [Fixes ρ α] [Fixes ρ β] : Fixes ρ (α × β) where
  recode_eq x := Prod.ext (recode_eq x.1) (recode_eq x.2)

instance {κ : Type} [Ord κ] [TransOrd κ] [LawfulEqOrd κ] [Fixes ρ α] :
    Fixes ρ (ExtTreeMap κ α) where
  recode_eq table := by
    apply ExtTreeMap.ext_getElem?
    intro key
    rw [lookup_recode, recode_eq]

variable [Fixes ρ Value] [Fixes ρ Closure]

instance : Fixes ρ MapEntry where
  recode_eq e := by
    change MapEntry.mk (recode ρ e.key) (recode ρ e.value) = e
    rw [recode_eq, recode_eq]

instance : Fixes ρ Record where
  recode_eq e := by
    change Record.mk e.struct (recode ρ e.fields) = e
    rw [recode_eq]

/-- A heap has no code but that of its values and methods. -/
instance : Fixes ρ Heap where
  recode_eq h := by
    change Heap.mk (recode ρ h.arrays) (recode ρ h.maps) (recode ρ h.records)
      (recode ρ h.methods) h.layout h.identities = h
    rw [recode_eq, recode_eq, recode_eq, recode_eq]

instance : Fixes ρ (Arena Value) where
  recode_eq a := by
    change a.map (recode ρ) = a
    rw [funext (Fixes.recode_eq (ρ := ρ) (α := Value))]
    exact a.map_id

end Fixes

end Script
