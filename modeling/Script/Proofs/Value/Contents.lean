import Script.Value.Access

/-!
# The contents of a heap

A map has an entry under the key that the entry's own key stands for, and a
record has the fields that its struct declares.  A heap is proper if that is so
of all its maps and records.

An evaluation changes its heap in few ways: it makes new places, it changes the
items of arrays, it writes parts that a container has or may get, and it adds
methods.  All of these leave a proper heap proper.
-/

namespace Script

open Std (ExtTreeMap LawfulEqOrd TransOrd)

@[simp]
theorem toList_empty {κ α : Type} [Ord κ] [TransOrd κ] :
    (∅ : ExtTreeMap κ α).toList = [] :=
  ExtTreeMap.toList_eq_nil_iff.mpr rfl

/-- An entry of a table with one more is the new entry or one that was there. -/
theorem eq_or_mem_of_mem_insert {κ α : Type} [Ord κ] [TransOrd κ] [LawfulEqOrd κ]
    {table : ExtTreeMap κ α} {key : κ} {x : α} {entry : κ × α}
    (hentry : entry ∈ (table.insert key x).toList) :
    entry = (key, x) ∨ entry ∈ table.toList := by
  obtain ⟨other, y⟩ := entry
  rw [ExtTreeMap.mem_toList_iff_getElem?_eq_some, ExtTreeMap.getElem?_insert] at hentry
  split at hentry
  · next hsame =>
    rw [← LawfulEqOrd.eq_of_compare hsame, Option.some.inj hentry]
    exact Or.inl rfl
  · exact Or.inr (ExtTreeMap.mem_toList_iff_getElem?_eq_some.mpr hentry)

/-! ### Proper contents -/

/-- Each entry is under the key that its own key stands for. -/
def Keyed (entries : ExtTreeMap MapKey MapEntry) : Prop :=
  ∀ (id : MapKey) (entry : MapEntry), entries[id]? = some entry →
    entry.key.mapKey? = some id

namespace Keyed

variable {entries : ExtTreeMap MapKey MapEntry}

theorem empty : Keyed ∅ := by
  intro id entry hentry
  simp at hentry

theorem insert (hkeyed : Keyed entries) {id : MapKey} {key : Value}
    (hkey : key.mapKey? = some id) (value : Value) :
    Keyed (entries.insert id { key, value }) := by
  intro other entry hentry
  rw [ExtTreeMap.getElem?_insert] at hentry
  split at hentry
  · next hsame =>
    obtain rfl := LawfulEqOrd.eq_of_compare hsame
    obtain rfl := Option.some.inj hentry
    exact hkey
  · exact hkeyed other entry hentry

theorem of_mem (hkeyed : Keyed entries) {x : MapKey × MapEntry}
    (hx : x ∈ entries.toList) : x.2.key.mapKey? = some x.1 :=
  hkeyed x.1 x.2 (ExtTreeMap.mem_toList_iff_getElem?_eq_some.mp hx)

/-- Two entries whose keys stand for the same are one entry. -/
theorem eq_of_mapKey? (hkeyed : Keyed entries) {x y : MapKey × MapEntry}
    (hx : x ∈ entries.toList) (hy : y ∈ entries.toList)
    (hsame : x.2.key.mapKey? = y.2.key.mapKey?) : x = y := by
  rw [hkeyed.of_mem hx, hkeyed.of_mem hy, Option.some.injEq] at hsame
  obtain ⟨id, entry⟩ := x
  obtain ⟨id', entry'⟩ := y
  obtain rfl : id = id' := hsame
  rw [ExtTreeMap.mem_toList_iff_getElem?_eq_some] at hx hy
  rw [Option.some.inj (hx.symm.trans hy)]

end Keyed

/-- A record has the fields of its struct, and no other. -/
def Record.Complete (r : Record) : Prop :=
  ∀ name, name ∈ r.fields ↔ name ∈ r.struct.fields

theorem mem_insert_of_mem {table : ExtTreeMap String Value} {name : String}
    (hmem : name ∈ table) (value : Value) (other : String) :
    other ∈ table.insert name value ↔ other ∈ table := by
  rw [ExtTreeMap.mem_insert, or_iff_right_of_imp]
  intro hsame
  rwa [← LawfulEqOrd.eq_of_compare hsame]

/-- Giving a field that is there another value leaves the record complete. -/
theorem Record.Complete.insert {r : Record} (hcomplete : r.Complete)
    {name : String} (hmem : name ∈ r.fields) (value : Value) :
    Complete { r with fields := r.fields.insert name value } :=
  fun other => (mem_insert_of_mem hmem value other).trans (hcomplete other)

/-- All fields of a struct, without values. -/
def StructDef.blank (d : StructDef) : ExtTreeMap String Value :=
  ExtTreeMap.ofList (d.fields.map fun name => (name, Value.null))

/-- A record whose fields are those of the struct, with whatever values. -/
theorem Record.complete_of_blank {d : StructDef} {fields : ExtTreeMap String Value}
    (hfields : ∀ name, name ∈ fields ↔ name ∈ d.blank) :
    Complete { struct := d, fields } := by
  intro name
  simp [hfields, StructDef.blank, ExtTreeMap.mem_ofList]

namespace Heap

/-- An integer is a position in something of a size, or there is none. -/
theorem position_cases (i : Int64) (size : Nat) :
    (i.toInt.toNat < size ∧ position i size = .ok i.toInt.toNat) ∨
      (i < 0 ∨ size ≤ i.toInt.toNat) ∧ ∃ problem, position i size = .error problem := by
  unfold position
  split
  case isTrue hnegative => exact Or.inr ⟨Or.inl hnegative, _, rfl⟩
  case isFalse hnegative =>
    dsimp only
    split
    case isTrue hlarge => exact Or.inr ⟨Or.inr hlarge, _, rfl⟩
    case isFalse hsmall => exact Or.inl ⟨Nat.lt_of_not_le hsmall, rfl⟩

theorem lt_of_position {index : Int64} {size i : Nat}
    (hposition : position index size = .ok i) : i < size := by
  rcases position_cases index size with ⟨hlt, heq⟩ | ⟨-, problem, herror⟩
  · cases heq.symm.trans hposition
    exact hlt
  · cases herror.symm.trans hposition

theorem items_newArray (h : Heap) (items : Array Value) (cell : Nat) :
    (h.newArray items).2.items cell = if cell = h.arrays.size then items else h.items cell := by
  simp only [Heap.items, newArray, Array.getD_eq_getD_getElem?, Array.getElem?_push]
  split <;> rfl

/-- All maps and records are as they should be. -/
structure Proper (h : Heap) : Prop where
  keyed : ∀ cell, Keyed (h.entries cell)
  complete : ∀ cell, cell < h.records.size → (h.instanceAt cell).Complete

theorem proper_empty (layout : Layout) : Proper { layout } where
  keyed := fun _ => Keyed.empty
  complete := fun _ hcell => absurd hcell (Nat.not_lt_zero _)

/-- A heap without records is proper if its maps are as they should be. -/
theorem proper_of_maps {h : Heap} (hrecords : h.records = #[])
    (hmaps : ∀ table ∈ h.maps.toList, Keyed table) : h.Proper where
  keyed := fun cell => by
    rw [entries, Array.getD_eq_getD_getElem?]
    cases hcell : h.maps[cell]? with
    | none => exact Keyed.empty
    | some table => exact hmaps table (Array.mem_of_getElem? hcell).val
  complete := fun _ hcell => absurd hcell (by simp [hrecords])

/-! ### What an evaluation does to a heap -/

/-- A part of a container that may be written: an entry under the key that its own
key stands for, or a field that is there. -/
def Admits (h : Heap) : Part → Prop
  | .element _ _ => True
  | .entry _ id key => key.mapKey? = some id
  | .field cell name => name ∈ (h.instanceAt cell).fields

/-- One change that an evaluation makes. -/
inductive Step : Heap → Heap → Prop where
  | newArray (h : Heap) (items : Array Value) : Step h (h.newArray items).2
  | newMap (h : Heap) {entries : ExtTreeMap MapKey MapEntry} (hkeyed : Keyed entries) :
    Step h (h.newMap entries).2
  | newRecord (h : Heap) {r : Record} (hcomplete : r.Complete) :
    Step h (h.newRecord r).2
  | newStruct (h : Heap) (name : String) (fields : List String) :
    Step h (h.newStruct name fields).2
  | newIdentity (h : Heap) : Step h h.newIdentity.2
  | modifyArray (h : Heap) (cell : Nat) (f : Array Value → Array Value) :
    Step h (h.modifyArray cell f)
  | store (h : Heap) {part : Part} (hadmits : h.Admits part) (value : Value) :
    Step h (h.store part value)
  | addMethod (h : Heap) (d : StructDef) (name : String) (f : Closure) :
    Step h (h.addMethod d name f)

theorem admits_of_elementPart {h : Heap} {container index : Value} {part : Part}
    (hpart : h.elementPart container index = .ok part) : h.Admits part := by
  unfold elementPart at hpart
  split at hpart
  · split at hpart
    · next i =>
      cases hposition : position i (h.items _).size with
      | ok => rw [hposition] at hpart; cases hpart; trivial
      | error => rw [hposition] at hpart; cases hpart
    · cases hpart
  · split at hpart
    · next id hid =>
      cases hpart
      exact hid
    · cases hpart
  · cases hpart
  · cases hpart

theorem admits_of_memberPart {h : Heap} {object : Value} {name : String}
    {part : Part} (hpart : h.memberPart object name = .ok part) :
    h.Admits part := by
  unfold memberPart at hpart
  split at hpart
  · dsimp only at hpart
    split at hpart
    · next hcontains =>
      cases hpart
      exact ExtTreeMap.mem_iff_contains.mpr hcontains
    · cases hpart
  · cases hpart
    rfl
  · cases hpart

theorem entries_of_maps_eq {h h' : Heap} (hmaps : h'.maps = h.maps) (cell : Nat) :
    h'.entries cell = h.entries cell := by
  rw [entries, entries, hmaps]

theorem instanceAt_of_records_eq {h h' : Heap} (hrecords : h'.records = h.records)
    (cell : Nat) : h'.instanceAt cell = h.instanceAt cell := by
  rw [instanceAt, instanceAt, hrecords]

/-- A change that leaves maps and records alone. -/
theorem Proper.of_eq {h h' : Heap} (hproper : h.Proper) (hmaps : h'.maps = h.maps)
    (hrecords : h'.records = h.records) : h'.Proper where
  keyed := fun cell => entries_of_maps_eq hmaps cell ▸ hproper.keyed cell
  complete := by
    intro cell hcell
    rw [hrecords] at hcell
    rw [instanceAt_of_records_eq hrecords]
    exact hproper.complete cell hcell

theorem Proper.newMap {h : Heap} (hproper : h.Proper)
    {table : ExtTreeMap MapKey MapEntry} (hkeyed : Keyed table) :
    (h.newMap table).2.Proper where
  keyed := by
    intro cell
    have hcell := hproper.keyed cell
    simp only [entries, Heap.newMap, Array.getD_eq_getD_getElem?,
      Array.getElem?_push] at hcell ⊢
    split
    · exact hkeyed
    · exact hcell
  complete := hproper.complete

theorem Proper.newRecord {h : Heap} (hproper : h.Proper) {r : Record}
    (hcomplete : r.Complete) : (h.newRecord r).2.Proper where
  keyed := hproper.keyed
  complete := by
    intro cell hcell
    have hold := hproper.complete cell
    simp only [instanceAt, Heap.newRecord, Array.size_push,
      Array.getD_eq_getD_getElem?, Array.getElem?_push] at hcell hold ⊢
    split
    · exact hcomplete
    · exact hold (by omega)

theorem Proper.insertEntry {h : Heap} (hproper : h.Proper) (cell : Nat)
    {id : MapKey} {key : Value} (hkey : key.mapKey? = some id) (value : Value) :
    (h.insertEntry cell id { key, value }).Proper where
  keyed := by
    intro other
    have hother := hproper.keyed other
    simp only [entries, Heap.insertEntry, Array.getD_eq_getD_getElem?,
      Array.getElem?_modify] at hother ⊢
    split
    · cases hfound : h.maps[other]? with
      | none => exact Keyed.empty
      | some table =>
        rw [hfound] at hother
        exact hother.insert hkey value
    · exact hother
  complete := hproper.complete

theorem Proper.setField {h : Heap} (hproper : h.Proper) {cell : Nat}
    {name : String} (hmem : name ∈ (h.instanceAt cell).fields)
    (value : Value) : (h.setField cell name value).Proper where
  keyed := hproper.keyed
  complete := by
    intro other hother
    have hsize : other < h.records.size := by
      simpa [Heap.setField] using hother
    have hold := hproper.complete other hsize
    simp only [instanceAt, Heap.setField, Array.getD_eq_getD_getElem?,
      Array.getElem?_modify, Array.getElem?_eq_getElem hsize, Option.getD_some]
      at hold hmem ⊢
    split
    · next heq =>
      subst heq
      rw [Array.getElem?_eq_getElem hsize] at hmem
      exact hold.insert hmem value
    · exact hold

theorem Step.proper {h h' : Heap} (hstep : Step h h') (hproper : h.Proper) :
    h'.Proper := by
  cases hstep with
  | newArray items => exact hproper.of_eq rfl rfl
  | newMap hkeyed => exact hproper.newMap hkeyed
  | newRecord hcomplete => exact hproper.newRecord hcomplete
  | newStruct name fields => exact hproper.of_eq rfl rfl
  | newIdentity => exact hproper.of_eq rfl rfl
  | modifyArray cell f => exact hproper.of_eq rfl rfl
  | @store part hadmits value =>
    cases part with
    | element cell i => exact hproper.of_eq rfl rfl
    | entry cell id key => exact hproper.insertEntry cell hadmits value
    | field cell name => exact hproper.setField hadmits value
  | addMethod d name f => exact hproper.of_eq rfl rfl

end Heap

end Script
