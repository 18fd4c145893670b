import Script.Eval.Loop
import Script.Eval.Place
import Script.Eval.Call
import Script.Proofs.Value.Contents
import Script.Proofs.Value.Paths

/-!
# References

Arrays, maps and records are mentioned by the values that stand for them, and data with
such values in it mentions them too.  A heap is whole if all containers that its contents
mention are there.  It stays so when containers are added, and when known values are
written to it, so no value ever stands for a container that is not there.
-/

namespace Script

open Std (ExtTreeMap LawfulEqOrd TransOrd)

/-- What may mention containers of a heap. -/
class Mentioning (α : Type) where
  mentions : α → List Ref

export Mentioning (mentions)

/-- Types that have no values of a program in them. -/
class Valueless (α : Type) : Prop

/-- So nothing is mentioned in them. -/
instance {α : Type} [Valueless α] : Mentioning α := ⟨fun _ => []⟩

instance : Valueless Unit where
instance : Valueless Bool where
instance : Valueless Nat where
instance : Valueless Int64 where
instance : Valueless String where
instance : Valueless MapKey where
instance : Valueless Closure where
instance : Valueless Problem where

section

variable {α β : Type} [Mentioning α] [Mentioning β]

instance : Mentioning (List α) := ⟨fun xs => xs.flatMap mentions⟩
instance : Mentioning (Array α) := ⟨fun xs => xs.toList.flatMap mentions⟩
instance : Mentioning (Option α) := ⟨fun x => x.toList.flatMap mentions⟩
instance : Mentioning (α × β) := ⟨fun x => mentions x.1 ++ mentions x.2⟩

instance [Ord α] [TransOrd α] : Mentioning (ExtTreeMap α β) :=
  ⟨fun table => mentions table.toList⟩

end

/-- A value mentions the container that it is. -/
instance : Mentioning Value := ⟨fun v => v.ref?.toList⟩
instance : Mentioning MapEntry := ⟨fun e => mentions e.key ++ mentions e.value⟩
instance : Mentioning Record := ⟨fun r => mentions r.fields⟩
instance : Mentioning Completion := ⟨fun c => mentions c.value⟩

/-- The methods of structs are functions, which mention no containers. -/
instance : Mentioning Heap :=
  ⟨fun h => mentions h.arrays ++ (mentions h.maps ++ mentions h.records)⟩

instance : Mentioning Heap.Answer where
  mentions
    | .value v => mentions v
    | .array items => mentions items

instance {α : Type} [Mentioning α] : Mentioning (Except Problem α) where
  mentions
    | .ok x => mentions x
    | .error _ => []

instance : Mentioning Computed := ⟨fun c => mentions c.answer⟩

instance : Mentioning Heap.Part where
  mentions
    | .entry _ _ key => mentions key
    | _ => []

instance : Mentioning Walk where
  mentions
    | .items pairs | .entries pairs => mentions pairs
    | .numbers .. => []

/-- The name of a variable is a place without a container. -/
instance : Mentioning Place where
  mentions
    | .name _ => []
    | .element container index _ => mentions container ++ mentions index
    | .member object _ _ => mentions object

namespace Heap

variable {α β : Type} [Mentioning α] [Mentioning β] {h h' h'' : Heap}

/-- All containers that are mentioned are in the heap. -/
def Knows (h : Heap) (x : α) : Prop := ∀ r ∈ mentions x, r ∈ h.refs

/-- All containers of the first heap are in the second one. -/
def Within (h h' : Heap) : Prop := ∀ r ∈ h.refs, r ∈ h'.refs

theorem Within.refl (h : Heap) : h.Within h := fun _ hr => hr

/-- Heaps of a run lie within each other, one step after another. -/
theorem Within.trans (hfirst : h.Within h') (hsecond : h'.Within h'') : h.Within h'' :=
  fun r hr => hsecond r (hfirst r hr)

/-- What is known stays known while a heap grows. -/
theorem Knows.mono {x : α} (hx : h.Knows x) (hwithin : h.Within h') : h'.Knows x :=
  fun r hr => hwithin r (hx r hr)

/-! ### What is known of data -/

theorem knows_of_mentions {x : α} (hx : mentions x = []) : h.Knows x :=
  fun _ hr => absurd (hx ▸ hr) List.not_mem_nil

/-- What has no values in it mentions nothing. -/
@[simp]
theorem knows_valueless {γ : Type} [Valueless γ] (x : γ) : h.Knows x :=
  knows_of_mentions rfl

/-- A list is known if its items are. -/
@[simp]
theorem knows_list {xs : List α} : h.Knows xs ↔ ∀ x ∈ xs, h.Knows x := by
  simp only [Knows, mentions, List.mem_flatMap]
  constructor
  · exact fun hxs x hx r hr => hxs r ⟨x, hx, hr⟩
  · rintro hxs r ⟨x, hx, hr⟩
    exact hxs x hx r hr

@[simp]
theorem knows_array {xs : Array α} : h.Knows xs ↔ ∀ x ∈ xs, h.Knows x := by
  have hlist : h.Knows xs ↔ h.Knows xs.toList := Iff.rfl
  simp [hlist]

@[simp]
theorem knows_option {x : Option α} : h.Knows x ↔ ∀ y ∈ x, h.Knows y := by
  have hlist : h.Knows x ↔ h.Knows x.toList := Iff.rfl
  simp [hlist]

@[simp]
theorem knows_nil : h.Knows ([] : List α) := knows_of_mentions rfl

theorem knows_cons {x : α} {xs : List α} : h.Knows (x :: xs) ↔ h.Knows x ∧ h.Knows xs := by
  simp only [knows_list, List.forall_mem_cons]

@[simp]
theorem knows_empty : h.Knows (#[] : Array α) := knows_of_mentions rfl

theorem knows_toList {xs : Array α} : h.Knows xs.toList ↔ h.Knows xs := Iff.rfl

@[simp]
theorem knows_none : h.Knows (none : Option α) := knows_of_mentions rfl

theorem knows_some {x : α} : h.Knows (some x) ↔ h.Knows x := by
  simp only [knows_option, Option.mem_def, Option.some.injEq, forall_eq']

/-- Most records mention the containers of one part and then those of another. -/
theorem knows_append {rs rs' : List Ref} :
    (∀ r ∈ rs ++ rs', r ∈ h.refs) ↔ (∀ r ∈ rs, r ∈ h.refs) ∧ ∀ r ∈ rs', r ∈ h.refs :=
  List.forall_mem_append

@[simp]
theorem knows_pair {x : α × β} : h.Knows x ↔ h.Knows x.1 ∧ h.Knows x.2 := knows_append

/-- A table is known by what its keys lead to. -/
theorem knows_table {κ : Type} [Ord κ] [TransOrd κ] [LawfulEqOrd κ] [Mentioning κ]
    {table : ExtTreeMap κ α} :
    h.Knows table ↔
      ∀ (key : κ) (x : α), table[key]? = some x → h.Knows key ∧ h.Knows x := by
  have hlist : h.Knows table ↔ h.Knows table.toList := Iff.rfl
  simp only [hlist, knows_list, knows_pair, Prod.forall,
    ExtTreeMap.mem_toList_iff_getElem?_eq_some]

@[simp]
theorem knows_emptyTable {κ : Type} [Ord κ] [TransOrd κ] [LawfulEqOrd κ] [Mentioning κ] :
    h.Knows (∅ : ExtTreeMap κ α) := by
  simp [knows_table]

/-- Of a value there is at most one container to be known. -/
theorem knows_value_iff {v : Value} : h.Knows v ↔ ∀ r, v.ref? = some r → r ∈ h.refs := by
  simp [Knows, mentions]

/-- What is no container is known. -/
theorem knows_of_ref? {v : Value} (hv : v.ref? = none) : h.Knows v :=
  knows_value_iff.mpr fun _ hr => absurd (hv.symm.trans hr) nofun

@[simp]
theorem knows_ok {x : α} : h.Knows (.ok x : Except Problem α) ↔ h.Knows x := Iff.rfl

@[simp]
theorem knows_error (problem : Problem) : h.Knows (.error problem : Except Problem α) :=
  knows_of_mentions rfl

@[simp]
theorem knows_answer_value {v : Value} : h.Knows (Answer.value v) ↔ h.Knows v := Iff.rfl

@[simp]
theorem knows_answer_array {items : Array Value} :
    h.Knows (Answer.array items) ↔ h.Knows items := Iff.rfl

@[simp]
theorem knows_computed {c : Computed} : h.Knows c ↔ h.Knows c.answer := Iff.rfl

@[simp]
theorem knows_entry {e : MapEntry} : h.Knows e ↔ h.Knows e.key ∧ h.Knows e.value :=
  knows_append

@[simp]
theorem knows_record {r : Record} : h.Knows r ↔ h.Knows r.fields := Iff.rfl

/-- A heap mentions what its containers hold. -/
theorem knows_heap {g : Heap} :
    h.Knows g ↔ h.Knows g.arrays ∧ h.Knows g.maps ∧ h.Knows g.records :=
  knows_append.trans (and_congr_right fun _ => knows_append)

/-- Every container that is mentioned in the heap is there. -/
def Whole (h : Heap) : Prop := h.Knows h

/-- The parts of a whole heap, which is what steps change one by one. -/
theorem whole_iff :
    h.Whole ↔ h.Knows h.arrays ∧ h.Knows h.maps ∧ h.Knows h.records := knows_heap

/-- Without containers there is nothing to mention any. -/
theorem whole_empty (layout : Layout) : Whole { layout } := by
  simp [whole_iff]

/-! ### What is in a heap -/

@[simp]
theorem mem_refs_array {cell : Nat} : Ref.array cell ∈ h.refs ↔ cell < h.arrays.size := by
  simp [refs]

@[simp]
theorem mem_refs_map {cell : Nat} : Ref.map cell ∈ h.refs ↔ cell < h.maps.size := by
  simp [refs]

@[simp]
theorem mem_refs_record {cell : Nat} :
    Ref.record cell ∈ h.refs ↔ cell < h.records.size := by
  simp [refs]

/-- A heap has all containers of another one if it has as many of each kind. -/
theorem within_of_size_le (harrays : h.arrays.size ≤ h'.arrays.size)
    (hmaps : h.maps.size ≤ h'.maps.size) (hrecords : h.records.size ≤ h'.records.size) :
    h.Within h' := by
  intro r hr
  cases r with
  | array cell => exact mem_refs_array.mpr (Nat.lt_of_lt_of_le (mem_refs_array.mp hr) harrays)
  | map cell => exact mem_refs_map.mpr (Nat.lt_of_lt_of_le (mem_refs_map.mp hr) hmaps)
  | record cell =>
    exact mem_refs_record.mpr (Nat.lt_of_lt_of_le (mem_refs_record.mp hr) hrecords)

/-- An item that is there is known, and for one that is not there is the default. -/
theorem knows_getD {xs : Array α} {default : α} (hxs : h.Knows xs)
    (hdefault : h.Knows default) (i : Nat) : h.Knows (xs.getD i default) := by
  by_cases hi : i < xs.size
  · rw [Array.getD, dif_pos hi]
    exact knows_array.mp hxs _ (Array.getElem_mem hi)
  · rwa [Array.getD, dif_neg hi]

/-- What is read from a whole heap is known. -/
theorem Whole.items (hwhole : h.Whole) (cell : Nat) : h.Knows (h.items cell) :=
  knows_getD (whole_iff.mp hwhole).1 (by simp) cell

theorem Whole.entries (hwhole : h.Whole) (cell : Nat) : h.Knows (h.entries cell) :=
  knows_getD (whole_iff.mp hwhole).2.1 (by simp) cell

theorem Whole.instanceAt (hwhole : h.Whole) (cell : Nat) :
    h.Knows (h.instanceAt cell) :=
  knows_getD (whole_iff.mp hwhole).2.2
    (by simp [default, instInhabitedRecord.default]) cell

/-- An entry takes the place of another one or is added. -/
theorem knows_insert {κ : Type} [Ord κ] [TransOrd κ] [LawfulEqOrd κ] [Mentioning κ]
    {table : ExtTreeMap κ α} (htable : h.Knows table) {key : κ} {x : α}
    (hkey : h.Knows key) (hx : h.Knows x) : h.Knows (table.insert key x) := by
  refine knows_table.mpr fun other y hy => ?_
  rw [ExtTreeMap.getElem?_insert] at hy
  split at hy
  · next hsame =>
    exact ⟨LawfulEqOrd.eq_of_compare hsame ▸ hkey, Option.some.inj hy ▸ hx⟩
  · exact knows_table.mp htable other y hy

/-- The entries are inserted one after another. -/
theorem knows_insertMany {κ : Type} [Ord κ] [TransOrd κ] [LawfulEqOrd κ] [Mentioning κ]
    {entries : List (κ × α)} (hentries : h.Knows entries) {table : ExtTreeMap κ α}
    (htable : h.Knows table) : h.Knows (table.insertMany entries) := by
  induction entries generalizing table with
  | nil => rwa [ExtTreeMap.insertMany_nil]
  | cons entry entries ih =>
    obtain ⟨hentry, hrest⟩ := knows_cons.mp hentries
    obtain ⟨hkey, hvalue⟩ := knows_pair.mp hentry
    rw [ExtTreeMap.insertMany_cons]
    exact ih hrest (knows_insert htable hkey hvalue)

/-! ### What is done to a heap -/

/-- An array with one more item that is known. -/
theorem knows_push {xs : Array α} {x : α} (hxs : h.Knows xs) (hx : h.Knows x) :
    h.Knows (xs.push x) := by
  refine knows_array.mpr fun y hy => ?_
  rcases Array.mem_push.mp hy with hold | rfl
  · exact knows_array.mp hxs y hold
  · exact hx

/-- A change of one item that keeps it known. -/
theorem knows_modify {xs : Array α} (hxs : h.Knows xs) (i : Nat) {f : α → α}
    (hf : ∀ x, h.Knows x → h.Knows (f x)) : h.Knows (xs.modify i f) := by
  refine knows_array.mpr fun y hy => ?_
  obtain ⟨j, hj, rfl⟩ := Array.getElem_of_mem hy
  rw [Array.getElem_modify]
  have hold := knows_array.mp hxs _ (Array.getElem_mem (by simpa using hj))
  split
  · exact hf _ hold
  · exact hold

/-- The second heap comes from the first, and is whole if that is. -/
structure Extends (h h' : Heap) : Prop where
  within : h.Within h'
  whole : h'.Whole

/-- The new array is the last of the heap, so the value that stands for it is known. -/
theorem Whole.newArray (hwhole : h.Whole) {items : Array Value} (hitems : h.Knows items) :
    h.Extends (h.newArray items).2 ∧ (h.newArray items).2.Knows (h.newArray items).1 := by
  obtain ⟨harrays, hmaps, hrecords⟩ := whole_iff.mp hwhole
  have hwithin : h.Within (h.newArray items).2 :=
    within_of_size_le (by simp [Heap.newArray]) (Nat.le_refl _) (Nat.le_refl _)
  refine ⟨⟨hwithin, whole_iff.mpr ⟨?_, hmaps.mono hwithin, hrecords.mono hwithin⟩⟩, ?_⟩
  · exact knows_push (harrays.mono hwithin) (hitems.mono hwithin)
  · exact knows_value_iff.mpr fun r hr => by cases hr; simp [Heap.newArray]

theorem Whole.newMap (hwhole : h.Whole) {table : ExtTreeMap MapKey MapEntry}
    (htable : h.Knows table) :
    h.Extends (h.newMap table).2 ∧ (h.newMap table).2.Knows (h.newMap table).1 := by
  obtain ⟨harrays, hmaps, hrecords⟩ := whole_iff.mp hwhole
  have hwithin : h.Within (h.newMap table).2 :=
    within_of_size_le (Nat.le_refl _) (by simp [Heap.newMap]) (Nat.le_refl _)
  refine ⟨⟨hwithin, whole_iff.mpr ⟨harrays.mono hwithin, ?_, hrecords.mono hwithin⟩⟩, ?_⟩
  · exact knows_push (hmaps.mono hwithin) (htable.mono hwithin)
  · exact knows_value_iff.mpr fun r hr => by cases hr; simp [Heap.newMap]

theorem Whole.newRecord (hwhole : h.Whole) {r : Record} (hr : h.Knows r) :
    h.Extends (h.newRecord r).2 ∧ (h.newRecord r).2.Knows (h.newRecord r).1 := by
  obtain ⟨harrays, hmaps, hrecords⟩ := whole_iff.mp hwhole
  have hwithin : h.Within (h.newRecord r).2 :=
    within_of_size_le (Nat.le_refl _) (Nat.le_refl _) (by simp [Heap.newRecord])
  refine ⟨⟨hwithin, whole_iff.mpr ⟨harrays.mono hwithin, hmaps.mono hwithin, ?_⟩⟩, ?_⟩
  · exact knows_push (hrecords.mono hwithin) (hr.mono hwithin)
  · exact knows_value_iff.mpr fun r hr => by cases hr; simp [Heap.newRecord]

/-- Changes of the methods and of the count of identities. -/
theorem Whole.of_eq (hwhole : h.Whole) (harrays : h'.arrays = h.arrays)
    (hmaps : h'.maps = h.maps) (hrecords : h'.records = h.records) : h.Extends h' := by
  have hwithin : h.Within h' :=
    within_of_size_le (harrays ▸ Nat.le_refl _) (hmaps ▸ Nat.le_refl _)
      (hrecords ▸ Nat.le_refl _)
  obtain ⟨ha, hm, hr⟩ := whole_iff.mp hwhole
  exact ⟨hwithin, whole_iff.mpr ⟨harrays ▸ ha.mono hwithin, hmaps ▸ hm.mono hwithin,
    hrecords ▸ hr.mono hwithin⟩⟩

/-- The number of arrays stays, so no container is lost. -/
theorem Whole.modifyArray (hwhole : h.Whole) (cell : Nat) {f : Array Value → Array Value}
    (hf : ∀ items, h.Knows items → h.Knows (f items)) :
    h.Extends (h.modifyArray cell f) := by
  obtain ⟨harrays, hmaps, hrecords⟩ := whole_iff.mp hwhole
  have hwithin : h.Within (h.modifyArray cell f) :=
    within_of_size_le (by simp [Heap.modifyArray]) (Nat.le_refl _) (Nat.le_refl _)
  exact ⟨hwithin, whole_iff.mpr ⟨(knows_modify harrays cell hf).mono hwithin,
    hmaps.mono hwithin, hrecords.mono hwithin⟩⟩

/-- The key and the value of the entry have to be known. -/
theorem Whole.insertEntry (hwhole : h.Whole) (cell : Nat) (id : MapKey) {entry : MapEntry}
    (hentry : h.Knows entry) : h.Extends (h.insertEntry cell id entry) := by
  obtain ⟨harrays, hmaps, hrecords⟩ := whole_iff.mp hwhole
  have hwithin : h.Within (h.insertEntry cell id entry) :=
    within_of_size_le (Nat.le_refl _) (by simp [Heap.insertEntry]) (Nat.le_refl _)
  refine ⟨hwithin, whole_iff.mpr ⟨harrays.mono hwithin, ?_, hrecords.mono hwithin⟩⟩
  refine (knows_modify hmaps cell fun table htable => ?_).mono hwithin
  exact knows_insert htable (knows_valueless id) hentry

/-- The other fields stay as they were. -/
theorem Whole.setField (hwhole : h.Whole) (cell : Nat) (name : String) {value : Value}
    (hvalue : h.Knows value) : h.Extends (h.setField cell name value) := by
  obtain ⟨harrays, hmaps, hrecords⟩ := whole_iff.mp hwhole
  have hwithin : h.Within (h.setField cell name value) :=
    within_of_size_le (Nat.le_refl _) (Nat.le_refl _) (by simp [Heap.setField])
  refine ⟨hwithin, whole_iff.mpr ⟨harrays.mono hwithin, hmaps.mono hwithin, ?_⟩⟩
  refine (knows_modify hrecords cell fun r hr => ?_).mono hwithin
  exact knows_record.mpr (knows_insert (knows_record.mp hr) (knows_valueless name) hvalue)

/-- Each part is in one container, which is changed in its place. -/
theorem Whole.store (hwhole : h.Whole) {part : Part} {value : Value}
    (hpart : h.Knows part) (hvalue : h.Knows value) : h.Extends (h.store part value) := by
  cases part with
  | element cell i =>
    refine hwhole.modifyArray cell fun items hitems => knows_array.mpr fun y hy => ?_
    rcases Array.mem_or_eq_of_mem_setIfInBounds hy with hold | rfl
    · exact knows_array.mp hitems y hold
    · exact hvalue
  | entry cell id key => exact hwhole.insertEntry cell id (knows_entry.mpr ⟨hpart, hvalue⟩)
  | field cell name => exact hwhole.setField cell name hvalue

/-- An answer is taken over as what the heap knows then. -/
theorem Whole.take (hwhole : h.Whole) {answer : Answer} (hanswer : h.Knows answer) :
    h.Extends (h.take answer).2 ∧ (h.take answer).2.Knows (h.take answer).1 := by
  cases answer with
  | value v => exact ⟨⟨.refl h, hwhole⟩, hanswer⟩
  | array items => exact hwhole.newArray hanswer

end Heap

end Script
