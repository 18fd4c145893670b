import Script.Eval.Annotation
import Script.Eval.Loop
import Script.Proofs.Value.Recoding
import Script.Value.Operator

/-!
# Questions that do not depend on code

What is read from a heap is the same for recoded values, up to the code in the
answer.  This is so of the text and the type of a value, of equality, of the
parts of containers and of all operators.
-/

namespace Script

open Scope (Arena FrameId)
open Std (ExtTreeMap TransOrd LawfulEqOrd)

variable (ρ : Recoding)

/-! ### Lists under a recoding -/

section

variable {α : Type} [Recodable α]

/-- What is asked of all items has the same answer if each item gives the same one. -/
theorem all_recode {p q : α → Bool} (hpq : ∀ x, q (recode ρ x) = p x)
    (xs : Array α) : (recode ρ xs).all q = xs.all p := by
  rw [recode_array, Array.all_map]
  exact congrArg xs.all (funext hpq)

theorem any_recode {p q : α → Bool} (hpq : ∀ x, q (recode ρ x) = p x)
    (xs : Array α) : (recode ρ xs).any q = xs.any p := by
  rw [recode_array, Array.any_map]
  exact congrArg xs.any (funext hpq)

/-- An array of recoded items is empty if the array was. -/
theorem isEmpty_recode (xs : Array α) : (recode ρ xs).isEmpty = xs.isEmpty := by
  simp [Array.isEmpty]

end

/-! ### Texts -/

/-- A recoding keeps the texts of parameters, and no more of them is printed. -/
theorem paramsText_recode (params : List Name) :
    paramsText (ρ.params params) = paramsText params := by
  rw [paramsText, paramsText, ρ.params_text]

/-- A function without a name stays without one. -/
@[simp]
theorem Closure.name_recode (f : Closure) : (recode ρ f).name = f.name :=
  congrArg (·.getD "<anonymous>") (ρ.function_name f.code)

/-- Functions print their name and parameters, both of which a recoding keeps. -/
@[simp]
theorem Value.plainText_recode (quoted : Bool) (v : Value) :
    (recode ρ v).plainText quoted = v.plainText quoted := by
  cases v with
  | function f =>
    change "<fn " ++ (recode ρ f).name ++
      paramsText (ρ.function f.code).params.names ++ ">" = _
    rw [Closure.name_recode, paramsText, ρ.function_params]
    rfl
  | arrow f =>
    change "<arrow" ++ paramsText (ρ.params f.params) ++ ">" = _
    rw [paramsText_recode]
    rfl
  | _ => rfl

namespace Heap

variable (h : Heap)

/-- The text of an array that the printer is not inside of yet. -/
theorem textOn_array {quoted : Bool} {path : List Ref} {cell : Nat}
    (hnew : Ref.array cell ∉ path) :
    h.textOn quoted path (.array cell) =
      "[" ++ ", ".intercalate ((h.items cell).toList.map
        (h.textOn true (.array cell :: path))) ++ "]" := by
  rw [textOn, if_neg hnew]
  simp only [List.map_attach_eq_pmap, List.pmap_eq_map]

/-- The texts of the entries are sorted as a whole, wherever the entries are in memory.
-/
theorem textOn_map {quoted : Bool} {path : List Ref} {cell : Nat}
    (hnew : Ref.map cell ∉ path) :
    h.textOn quoted path (.map cell) =
      "\x7b" ++ ", ".intercalate (sortTexts ((h.storedEntries cell).map fun entry =>
        entry.2.key.plainText true ++ ": " ++
          h.textOn true (.map cell :: path) entry.2.value)) ++ "\x7d" := by
  rw [textOn, if_neg hnew]
  simp only [List.map_attach_eq_pmap, List.pmap_eq_map]

/-- The text of one field of a record. -/
def fieldText (path : List Ref) (fields : ExtTreeMap String Value)
    (name : String) : String :=
  match fields[name]? with
  | none => name ++ ": null"
  | some value => name ++ ": " ++ h.textOn true path value

/-- The fields of a record come in the order in which its struct declares them. -/
theorem textOn_record {quoted : Bool} {path : List Ref} {cell : Nat}
    (hnew : Ref.record cell ∉ path) :
    h.textOn quoted path (.record cell) =
      (h.instanceAt cell).struct.name ++ " \x7b" ++
        ", ".intercalate ((h.instanceAt cell).struct.fields.map
          (h.fieldText (.record cell :: path) (h.instanceAt cell).fields)) ++
        "\x7d" := by
  rw [textOn, if_neg hnew]
  refine congrArg (fun fields => (h.instanceAt cell).struct.name ++ " \x7b" ++
    ", ".intercalate fields ++ "\x7d") (List.map_congr_left fun name _ => ?_)
  rw [fieldText]
  split <;> simp_all

/-- The kinds of values that are places in a heap. -/
def containers : List Kind := [.array, .map, .record]

/-- Values that are no places are printed without a look at the heap. -/
theorem textOn_plain {quoted : Bool} {path : List Ref} {v : Value}
    (hplain : v.kind ∉ containers) :
    h.textOn quoted path v = v.plainText quoted := by
  cases v with
  | array | map | record => exact (hplain (by simp [containers, Value.kind])).elim
  | _ => rw [textOn] <;> (intro cell heq; cases heq)

/-- The entries of a map are at the same places in memory. -/
theorem storedEntries_recode (cell : Nat) :
    (recode ρ h).storedEntries cell = recode ρ (h.storedEntries cell) := by
  simp only [storedEntries, entries_recode, entries_toList_recode, size_table_recode]
  rw [recode_list, recode_list, List.map_mergeSort]
  intro left _ right _
  rfl

/-- The induction is the one of the printer, on the places that it is not inside of yet.
-/
theorem textOn_recode (quoted : Bool) (path : List Ref) (v : Value) :
    (recode ρ h).textOn quoted path (recode ρ v) = h.textOn quoted path v := by
  induction quoted, path, v using Heap.textOn.induct h with
  | case1 quoted path cell hseen =>
    change (recode ρ h).textOn quoted path (.array cell) = _
    rw [textOn, if_pos hseen, textOn, if_pos hseen]
  | case2 quoted path cell hnew ih =>
    change (recode ρ h).textOn quoted path (.array cell) = _
    rw [textOn_array _ hnew, textOn_array _ hnew, items_recode, recode_toList,
      recode_list, List.map_map]
    exact congrArg (fun items => "[" ++ ", ".intercalate items ++ "]")
      (List.map_congr_left ih)
  | case3 quoted path cell hseen =>
    change (recode ρ h).textOn quoted path (.map cell) = _
    rw [textOn, if_pos hseen, textOn, if_pos hseen]
  | case4 quoted path cell hnew ih =>
    change (recode ρ h).textOn quoted path (.map cell) = _
    rw [textOn_map _ hnew, textOn_map _ hnew, storedEntries_recode, recode_list,
      List.map_map]
    refine congrArg (fun entries =>
      "\x7b" ++ ", ".intercalate (sortTexts entries) ++ "\x7d")
      (List.map_congr_left fun entry hentry => ?_)
    change (recode ρ entry.2.key).plainText true ++ ": " ++
      (recode ρ h).textOn true _ (recode ρ entry.2.value) = _
    rw [Value.plainText_recode, ih entry hentry]
  | case5 quoted path cell hseen =>
    change (recode ρ h).textOn quoted path (.record cell) = _
    rw [textOn, if_pos hseen, textOn, if_pos hseen, instanceAt_recode]
    rfl
  | case6 quoted path cell hnew ih =>
    change (recode ρ h).textOn quoted path (.record cell) = _
    rw [textOn_record _ hnew, textOn_record _ hnew, instanceAt_recode]
    refine congrArg (fun fields =>
      (h.instanceAt cell).struct.name ++ " \x7b" ++ ", ".intercalate fields ++
        "\x7d") (List.map_congr_left fun name _ => ?_)
    rw [fieldText, fieldText, fields_recode, lookup_recode]
    cases hfind : (h.instanceAt cell).fields[name]? with
    | none => rfl
    | some value => exact congrArg (name ++ ": " ++ ·) (ih name value hfind)
  | case7 quoted path v harray hmap hrecord =>
    have hplain : v.kind ∉ containers := by
      cases v with
      | array cell => exact (harray cell rfl).elim
      | map cell => exact (hmap cell rfl).elim
      | record cell => exact (hrecord cell rfl).elim
      | _ => exact of_decide_eq_true rfl
    rw [textOn_plain h hplain,
      textOn_plain _ ((Value.kind_recode ρ v).symm ▸ hplain),
      Value.plainText_recode]

@[simp]
theorem display_recode (v : Value) :
    (recode ρ h).display (recode ρ v) = h.display v :=
  textOn_recode ρ h false [] v

/-- Inside of containers texts are quoted, before and after. -/
@[simp]
theorem repr_recode (v : Value) :
    (recode ρ h).repr (recode ρ v) = h.repr v :=
  textOn_recode ρ h true [] v

theorem map_display_recode (vs : List Value) :
    (recode ρ vs).map (recode ρ h).display = vs.map h.display := by
  rw [recode_list, List.map_map]
  exact List.map_congr_left fun v _ => display_recode ρ h v

/-- Entries are sorted by the texts of their keys, which a recoding keeps. -/
@[simp]
theorem sortedEntries_recode (cell : Nat) :
    (recode ρ h).sortedEntries cell = recode ρ (h.sortedEntries cell) := by
  rw [sortedEntries, storedEntries_recode, sortedEntries]
  have hentries : (recode ρ (h.storedEntries cell)).map (·.2) =
      ((h.storedEntries cell).map (·.2)).map (recode ρ) := by
    simp [recode_list, Function.comp_def]
  rw [hentries, recode_list, List.map_mergeSort]
  intro left _ right _
  simp

/-! ### Types -/

/-- A record has the name of its struct for a type. -/
@[simp]
theorem typeName_recode (v : Value) :
    (recode ρ h).typeName (recode ρ v) = h.typeName v := by
  cases v with
  | record cell =>
    change ((recode ρ h).instanceAt cell).struct.name = _
    rw [instanceAt_recode]
    rfl
  | _ => rfl

theorem map_typeName_recode (vs : List Value) :
    (recode ρ vs).map (recode ρ h).typeName = vs.map h.typeName := by
  rw [recode_list, List.map_map]
  exact List.map_congr_left fun v _ => typeName_recode ρ h v

/-- Containers are true unless they are empty. -/
@[simp]
theorem truthy_recode (v : Value) :
    (recode ρ h).truthy (recode ρ v) = h.truthy v := by
  cases v with
  | array cell =>
    change (!((recode ρ h).items cell).isEmpty) = _
    rw [items_recode, isEmpty_recode]
    rfl
  | map cell =>
    change (!((recode ρ h).entries cell).isEmpty) = _
    rw [entries_recode, ExtTreeMap.isEmpty_eq_size_beq_zero, size_table_recode,
      ← ExtTreeMap.isEmpty_eq_size_beq_zero]
    rfl
  | _ => rfl

/-- A type of the language is a kind, and any other name is that of a struct. -/
theorem hasNamedType_recode (name : String) (v : Value) :
    (recode ρ h).hasNamedType name (recode ρ v) = h.hasNamedType name v := by
  unfold hasNamedType
  split
  all_goals first
    | rw [Value.kind_recode]
    | rfl
    | skip
  · cases v <;> rfl
  · cases v with
    | record cell =>
      change (((recode ρ h).instanceAt cell).struct.name == _) = _
      rw [instanceAt_recode]
      rfl
    | _ => rfl

/-- Only the types of arrays look inside the value, so the induction is on the type. -/
@[simp]
theorem hasType_recode (type : TypeExpr) (v : Value) :
    (recode ρ h).hasType type (recode ρ v) = h.hasType type v := by
  induction type generalizing v with
  | named name loc => exact hasNamedType_recode ρ h name v
  | array element loc ih =>
    cases v with
    | array cell =>
      change ((recode ρ h).items cell).all ((recode ρ h).hasType element) = _
      rw [items_recode]
      exact all_recode ρ ih _
    | _ => rfl
  | map key value loc =>
    exact congrArg (· == Kind.map) (Value.kind_recode ρ v)

/-- The first item of a wrong type is at the same index, and it is recoded. -/
theorem firstMismatch?_recode (type : TypeExpr) (v : Value) :
    (recode ρ h).firstMismatch? type (recode ρ v) =
      recode ρ (h.firstMismatch? type v) := by
  cases v with
  | array cell =>
    change (recode ρ h).firstMismatch? type (.array cell) = _
    unfold firstMismatch?
    cases type.element? with
    | none => rfl
    | some element =>
      have hfind : (recode ρ (h.items cell).toList).findIdx?
          (fun item => !(recode ρ h).hasType element item) =
          (h.items cell).toList.findIdx? fun item =>
            !h.hasType element item := by
        rw [recode_list, List.findIdx?_map]
        refine congrArg (List.findIdx? · _) (funext fun item => ?_)
        exact congrArg (!·) (hasType_recode ρ h element item)
      simp only [items_recode, recode_toList, hfind]
      split
      · next i _ =>
        rw [List.getD_eq_getElem?_getD, getElem?_recode,
          ← Value.recode_null ρ, option_getD_recode]
        simp
      · rfl
  | _ => rfl

/-! ### Equality -/

/-- The tests need agree on the items only. -/
theorem all_eq_of_mem {α : Type} {xs : List α} {p q : α → Bool}
    (hpq : ∀ x ∈ xs, p x = q x) : xs.all p = xs.all q := by
  induction xs with
  | nil => rfl
  | cons x xs ih => simp_all

/-- The recursion of equality remembers where its entries are from, and no more. -/
theorem all_attach_eq {α : Type} {xs : List α} {p : {x // x ∈ xs} → Bool}
    {q : α → Bool} (hpq : ∀ x, p x = q x.1) : xs.attach.all p = xs.all q := by
  rw [funext hpq]
  simp

/-- Functions are compared by their number, whatever their code is. -/
@[simp]
theorem plainEqual?_recode (v w : Value) :
    (recode ρ v).plainEqual? (recode ρ w) = v.plainEqual? w := by
  cases v <;> cases w <;> rfl

/-- Whether the items of two arrays are equal one by one. -/
def pairsEqual (path : List (Ref × Ref)) (vs ws : List Value) : Bool :=
  (vs.zip ws).all fun pair => (h.equalOn? path pair.1 pair.2).getD false

/-- Whether the values under the keys of a table are equal to those in another. -/
def valuesEqual {κ β : Type} [Ord κ] [TransOrd κ] (path : List (Ref × Ref))
    (value : β → Value) (table others : ExtTreeMap κ β) : Bool :=
  table.toList.all fun entry =>
    match others[entry.1]? with
    | none => false
    | some other =>
      (h.equalOn? path (value entry.2) (value other)).getD false

/-- Two different arrays that are not being compared yet. -/
theorem equalOn?_array {path : List (Ref × Ref)} {a b : Nat}
    (hnew : ¬ (a = b ∨ (Ref.array a, Ref.array b) ∈ path)) :
    h.equalOn? path (.array a) (.array b) =
      some ((h.items a).size == (h.items b).size &&
        h.pairsEqual ((.array a, .array b) :: path) (h.items a).toList
          (h.items b).toList) := by
  rw [equalOn?, if_neg hnew]
  simp only [pairsEqual, List.all_subtype, List.unattach_attach]

/-- Two different maps: as many entries, and each key of the one leads to an equal value
in the other. -/
theorem equalOn?_map {path : List (Ref × Ref)} {a b : Nat}
    (hnew : ¬ (a = b ∨ (Ref.map a, Ref.map b) ∈ path)) :
    h.equalOn? path (.map a) (.map b) =
      some ((h.entries a).size == (h.entries b).size &&
        h.valuesEqual ((.map a, .map b) :: path) MapEntry.value (h.entries a)
          (h.entries b)) := by
  rw [equalOn?, if_neg hnew]
  refine congrArg (fun equal => some (_ && equal))
    (all_attach_eq fun attached => ?_)
  obtain ⟨entry, _⟩ := attached
  dsimp only [id]
  split <;> simp_all

/-- Records of different structs are never equal. -/
theorem equalOn?_record {path : List (Ref × Ref)} {a b : Nat}
    (hnew : ¬ (a = b ∨ (Ref.record a, Ref.record b) ∈ path)) :
    h.equalOn? path (.record a) (.record b) =
      some ((h.instanceAt a).struct.id == (h.instanceAt b).struct.id &&
        h.valuesEqual ((.record a, .record b) :: path) id
          (h.instanceAt a).fields (h.instanceAt b).fields) := by
  rw [equalOn?, if_neg hnew]
  refine congrArg (fun equal => some (_ && equal))
    (all_attach_eq fun attached => ?_)
  obtain ⟨entry, _⟩ := attached
  dsimp only [id]
  split <;> simp_all

/-- Values of different kinds, or that are no places, are compared without a look at the
heap. -/
theorem equalOn?_plain {path : List (Ref × Ref)} {v w : Value}
    (hplain : ¬ (v.kind = w.kind ∧ v.kind ∈ containers)) :
    h.equalOn? path v w = v.plainEqual? w := by
  rw [equalOn?] <;>
    (rintro a b rfl rfl; exact hplain ⟨rfl, by simp [containers, Value.kind]⟩)

/-- The induction hypothesis is asked for at the pairs only, where the recursion has it.
-/
theorem pairsEqual_recode {path : List (Ref × Ref)} {vs ws : List Value}
    (ih : ∀ pair ∈ vs.zip ws, (recode ρ h).equalOn? path (recode ρ pair.1)
      (recode ρ pair.2) = h.equalOn? path pair.1 pair.2) :
    (recode ρ h).pairsEqual path (recode ρ vs) (recode ρ ws) =
      h.pairsEqual path vs ws := by
  rw [pairsEqual, recode_list, recode_list, List.zip_map, List.all_map]
  exact all_eq_of_mem fun pair hpair => congrArg (·.getD false) (ih pair hpair)

/-- The entries of a map and the fields of a record, under one statement. -/
theorem valuesEqual_recode {κ β : Type} [Ord κ] [TransOrd κ] [LawfulEqOrd κ]
    [Codeless κ] [Recodable β] (value : β → Value)
    (hvalue : ∀ x, value (recode ρ x) = recode ρ (value x))
    {path : List (Ref × Ref)} {table others : ExtTreeMap κ β}
    (ih : ∀ entry ∈ table.toList, ∀ other, others[entry.1]? = some other →
      (recode ρ h).equalOn? path (recode ρ (value entry.2))
        (recode ρ (value other)) =
      h.equalOn? path (value entry.2) (value other)) :
    (recode ρ h).valuesEqual path value (recode ρ table) (recode ρ others) =
      h.valuesEqual path value table others := by
  rw [valuesEqual, entries_toList_recode, recode_list ρ table.toList, List.all_map]
  refine all_eq_of_mem fun entry hentry => ?_
  have hfind : (recode ρ others)[(recode ρ entry).1]? = recode ρ others[entry.1]? :=
    lookup_recode ρ entry.1 others
  simp only [Function.comp_apply, hfind]
  cases hother : others[entry.1]? with
  | none => rfl
  | some other =>
    have hequal := ih entry hentry other hother
    rw [← hvalue, ← hvalue] at hequal
    exact congrArg (·.getD false) hequal

/-- The induction is the one of equality, on the pairs of places that are not on the
path yet. -/
theorem equalOn?_recode (path : List (Ref × Ref)) (v w : Value) :
    (recode ρ h).equalOn? path (recode ρ v) (recode ρ w) =
      h.equalOn? path v w := by
  induction path, v, w using Heap.equalOn?.induct h with
  | case1 path a b hseen =>
    change (recode ρ h).equalOn? path (.array a) (.array b) = _
    rw [equalOn?, if_pos hseen, equalOn?, if_pos hseen]
  | case2 path a b hnew path' ih =>
    change (recode ρ h).equalOn? path (.array a) (.array b) = _
    rw [equalOn?_array _ hnew, equalOn?_array _ hnew]
    simp only [items_recode, recode_toList, size_recode]
    rw [pairsEqual_recode ρ h ih]
  | case3 path a b hseen =>
    change (recode ρ h).equalOn? path (.map a) (.map b) = _
    rw [equalOn?, if_pos hseen, equalOn?, if_pos hseen]
  | case4 path a b hnew path' ih =>
    change (recode ρ h).equalOn? path (.map a) (.map b) = _
    rw [equalOn?_map _ hnew, equalOn?_map _ hnew]
    simp only [entries_recode, size_table_recode]
    rw [valuesEqual_recode ρ h MapEntry.value (fun _ => rfl) ih]
  | case5 path a b hseen =>
    change (recode ρ h).equalOn? path (.record a) (.record b) = _
    rw [equalOn?, if_pos hseen, equalOn?, if_pos hseen]
  | case6 path a b hnew path' ih =>
    change (recode ρ h).equalOn? path (.record a) (.record b) = _
    rw [equalOn?_record _ hnew, equalOn?_record _ hnew]
    simp only [instanceAt_recode, struct_recode, fields_recode]
    rw [valuesEqual_recode ρ h id (fun _ => rfl) ih]
  | case7 path v w harrays hmaps hrecords =>
    have hplain : ¬ (v.kind = w.kind ∧ v.kind ∈ containers) := by
      rintro ⟨hkind, hcontainer⟩
      cases v with
      | array a => cases w <;> first | exact harrays _ _ rfl rfl | cases hkind
      | map a => cases w <;> first | exact hmaps _ _ rfl rfl | cases hkind
      | record a => cases w <;> first | exact hrecords _ _ rfl rfl | cases hkind
      | _ => simp [containers, Value.kind] at hcontainer
    rw [equalOn?_plain h hplain, equalOn?_plain _ (by simpa using hplain),
      plainEqual?_recode]

/-- Two values at the start of a comparison, with no places on the path. -/
@[simp]
theorem equal?_recode (v w : Value) :
    (recode ρ h).equal? (recode ρ v) (recode ρ w) = h.equal? v w :=
  equalOn?_recode ρ h [] v w

@[simp]
theorem same_recode (v w : Value) :
    (recode ρ h).same (recode ρ v) (recode ρ w) = h.same v w := by
  rw [same, equal?_recode, same]

/-! ### Parts of containers -/

/-- A question whose answer has neither code nor a refused call in it. -/
theorem recode_map {α β : Type} [Recodable β] {e : Except Problem α}
    {f g : α → β} (herror : ∀ p, e = .error p → recode ρ p = p)
    (hfg : ∀ x, recode ρ (f x) = g x) : recode ρ (e.map f) = e.map g := by
  cases e with
  | ok x => exact congrArg Except.ok (hfg x)
  | error p => exact congrArg Except.error (herror p rfl)

/-- An index that is no position is reported with numbers only. -/
theorem position_error {i : Int64} {size : Nat} {p : Problem}
    (herror : position i size = .error p) : recode ρ p = p := by
  unfold position at herror
  split at herror
  · cases herror
    rfl
  · dsimp only at herror
    split at herror <;> cases herror
    rfl

/-- A key that is not in the map gives null on both sides. -/
@[simp]
theorem entry_recode (cell : Nat) (key : MapKey) :
    (recode ρ h).entry cell key = recode ρ (h.entry cell key) := by
  rw [entry, entry, entries_recode, lookup_recode]
  cases (h.entries cell)[key]? <;> rfl

/-- Each kind of container reads an index in its own way. -/
theorem element_recode (container index : Value) :
    (recode ρ h).element (recode ρ container) (recode ρ index) =
      recode ρ (h.element container index) := by
  cases container with
  | array cell =>
    cases index with
    | int i =>
      change (position i ((recode ρ h).items cell).size).map
          (fun i => ((recode ρ h).items cell).getD i .null) =
        recode ρ ((position i (h.items cell).size).map
          fun i => (h.items cell).getD i .null)
      rw [items_recode, size_recode]
      exact (recode_map ρ (fun _ => position_error ρ)
        fun i => (getD_recode ρ (h.items cell) i .null).symm).symm
    | _ => rfl
  | str text =>
    cases index with
    | int i =>
      refine (recode_map ρ (fun _ => position_error ρ) fun i => ?_).symm
      cases text.toList[i]? <;> rfl
    | _ => rfl
  | range start stop =>
    cases index with
    | int i =>
      exact (recode_map ρ (f := fun i => Value.int (Range.nth start stop i))
        (fun _ => position_error ρ) fun i => rfl).symm
    | _ => rfl
  | map cell =>
    change (recode ρ h).element (.map cell) (recode ρ index) = _
    simp only [element, Value.mapKey?_recode, Value.tag_recode]
    cases index.mapKey? with
    | none => rfl
    | some key => exact congrArg Except.ok (entry_recode ρ h cell key)
  | _ => rfl

/-- A record looks for a field first and then for a method of its struct. -/
theorem member_recode (object : Value) (name : String) :
    (recode ρ h).member (recode ρ object) name =
      recode ρ (h.member object name) := by
  cases object with
  | map cell => exact congrArg Except.ok (entry_recode ρ h cell _)
  | record cell =>
    change (recode ρ h).member (.record cell) name = _
    simp only [member, instanceAt_recode, struct_recode, fields_recode,
      methodsOf_recode, lookup_recode, contains_recode]
    cases (h.instanceAt cell).fields[name]? with
    | some value => rfl
    | none =>
      simp only [recode_none]
      split <;> rfl
  | enum d =>
    change h.member (.enum d) name = recode ρ (h.member (.enum d) name)
    simp only [member]
    cases d.variant? name <;> rfl
  | variant v =>
    change h.member (.variant v) name = recode ρ (h.member (.variant v) name)
    simp only [member]
    split <;> rfl
  | _ => rfl

/-- A bound of a slice is an integer, or it is missing. -/
theorem sliceBound_recode (size default : Nat) (v : Option Value) :
    sliceBound size default (recode ρ v) =
      recode ρ (sliceBound size default v) := by
  rcases v with _ | v
  · rfl
  · cases v <;> rfl

theorem sliceBounds_recode (size : Nat) (start stop : Option Value) :
    sliceBounds size (recode ρ start) (recode ρ stop) =
      recode ρ (sliceBounds size start stop) := by
  simp only [sliceBounds, sliceBound_recode]
  cases sliceBound size 0 start with
  | error p => rfl
  | ok start => cases sliceBound size size stop <;> rfl

/-- The items between the bounds are recoded items. -/
theorem slice_recode (container : Value) (start stop : Option Value) :
    (recode ρ h).slice (recode ρ container) (recode ρ start) (recode ρ stop) =
      recode ρ (h.slice container start stop) := by
  cases container with
  | array cell =>
    change (sliceBounds ((recode ρ h).items cell).size _ _).map _ = _
    rw [items_recode, size_recode, sliceBounds_recode]
    simp only [slice]
    cases sliceBounds (h.items cell).size start stop with
    | error p => rfl
    | ok bounds =>
      exact congrArg (fun items => Except.ok (Answer.array items))
        Array.map_extract.symm
  | str text =>
    change (sliceBounds _ (recode ρ start) (recode ρ stop)).map _ = _
    rw [sliceBounds_recode]
    simp only [slice]
    cases sliceBounds text.toList.length start stop <;> rfl
  | _ => rfl

/-- Where an element would be written is found as where it is read. -/
theorem elementPart_recode (container index : Value) :
    (recode ρ h).elementPart (recode ρ container) (recode ρ index) =
      recode ρ (h.elementPart container index) := by
  cases container with
  | array cell =>
    cases index with
    | int i =>
      change (position i ((recode ρ h).items cell).size).map _ = _
      rw [items_recode, size_recode]
      exact (recode_map ρ (f := Part.element cell) (fun _ => position_error ρ)
        fun i => rfl).symm
    | _ => rfl
  | map cell =>
    change (recode ρ h).elementPart (.map cell) (recode ρ index) = _
    simp only [elementPart, Value.mapKey?_recode, Value.tag_recode]
    cases index.mapKey? <;> rfl
  | _ => rfl

/-- Only the fields of a record can be written. -/
theorem memberPart_recode (object : Value) (name : String) :
    (recode ρ h).memberPart (recode ρ object) name =
      recode ρ (h.memberPart object name) := by
  cases object with
  | record cell =>
    change (recode ρ h).memberPart (.record cell) name = _
    simp only [memberPart, instanceAt_recode, fields_recode, struct_recode,
      contains_recode]
    split <;> rfl
  | _ => rfl

/-! ### What a loop walks over -/

/-- Items are numbered before they are recoded or after. -/
theorem numbered_recode (items : List Value) :
    numbered (recode ρ items) = recode ρ (numbered items) := by
  simp only [numbered, recode_list, List.zipIdx_map, List.map_map]
  rfl

end Heap

instance : Recodable Walk :=
  ⟨fun ρ walk => match walk with
    | .items pairs => .items (recode ρ pairs)
    | .entries pairs => .entries (recode ρ pairs)
    | .numbers start stop => .numbers start stop⟩

/-- A loop walks over recoded items, and over the same numbers of them. -/
theorem Heap.walk_recode (h : Heap) (v : Value) :
    (recode ρ h).walk (recode ρ v) = recode ρ (h.walk v) := by
  cases v with
  | array cell =>
    change Except.ok (Walk.items (numbered ((recode ρ h).items cell).toList)) = _
    rw [items_recode, recode_toList, numbered_recode]
    rfl
  | str text =>
    have hchars : recode ρ (text.toList.map Value.char) =
        text.toList.map Value.char := by
      simp only [recode_list, List.map_map]
      rfl
    change Except.ok (Walk.items (numbered (text.toList.map Value.char))) =
      Except.ok (Walk.items (recode ρ (numbered (text.toList.map Value.char))))
    rw [← numbered_recode, hchars]
  | map cell =>
    change Except.ok (Walk.entries (((recode ρ h).sortedEntries cell).map
      fun e => (e.key, e.value))) = _
    rw [sortedEntries_recode]
    refine congrArg (fun pairs => Except.ok (Walk.entries pairs)) ?_
    simp only [recode_list, List.map_map]
    rfl
  | _ => rfl

/-! ### Operators -/

namespace Operator

section

variable {α : Type} [LT α] [LE α] [DecidableLT α] [DecidableLE α]

/-- A comparison gives a truth value or a report that has no code in it. -/
@[simp]
theorem recode_comparison (op : BinaryOp) (kind : Kind) (a b : α) :
    recode ρ (comparison op kind a b) = comparison op kind a b := by
  unfold comparison
  cases compare? op a b <;> rfl

end

/-- What an integer operation gives is a number, with a note if it did not fit. -/
@[simp]
theorem recode_settled (a : Int64) (op : String) (b : Int64) (checked : Option Int64)
    (wrapped : Int64) :
    recode ρ (settled a op b checked wrapped) = settled a op b checked wrapped := by
  cases checked <;> rfl

/-- The cases are those of the operators, since a division has reports of its own. -/
@[simp]
theorem recode_integer (op : BinaryOp) (a b : Int64) :
    recode ρ (integer op a b) = integer op a b := by
  have harithmetic : recode ρ (arithmetic op a b) = arithmetic op a b :=
    recode_settled ρ _ _ _ _ _
  unfold integer
  split
  case h_6 => exact recode_comparison ρ _ _ _ _
  case h_4 =>
    split
    · rfl
    · exact congrArg Except.ok harithmetic
  case h_5 =>
    split
    · rfl
    · have hanswer := congrArg Computed.answer harithmetic
      exact congrArg (fun answer => Except.ok (Computed.mk answer _)) hanswer
  all_goals exact congrArg Except.ok harithmetic

@[simp]
theorem recode_float (op : BinaryOp) (a b : Float) :
    recode ρ (float op a b) = float op a b := by
  unfold float
  split <;> try rfl
  · split <;> rfl
  · split <;> rfl
  · exact recode_comparison ρ _ _ _ _

/-- A warning about different types shows their names only. -/
theorem equality_recode (h : Heap) (op : BinaryOp) (left right : Value) :
    equality (recode ρ h) op (recode ρ left) (recode ρ right) =
      recode ρ (equality h op left right) := by
  simp only [equality, Heap.equal?_recode, Value.tag_recode,
    Value.isNull_recode]
  cases h.equal? left right <;> rfl

/-- The kinds of both operands decide, so the cases are those of the table of operators.
-/
theorem binary_recode (h : Heap) (op : BinaryOp) (left right : Value) :
    binary (recode ρ h) op (recode ρ left) (recode ρ right) =
      recode ρ (binary h op left right) := by
  unfold binary
  split
  · exact equality_recode ρ h op left right
  · cases left with
    | int a =>
      cases right with
      | int b => exact (recode_integer ρ op a b).symm
      | float b => exact (recode_float ρ op a.toFloat b).symm
      | _ => rfl
    | float a =>
      cases right with
      | int b => exact (recode_float ρ op a b.toFloat).symm
      | float b => exact (recode_float ρ op a b).symm
      | _ => rfl
    | str a =>
      cases right with
      | str b =>
        change (if op = .add then Except.ok (Computed.plain (.str (a ++ b)))
          else comparison op .str a b) = recode ρ (if op = .add then _ else _)
        split
        · rfl
        · exact (recode_comparison ρ op .str a b).symm
      | _ => rfl
    | array a =>
      cases right with
      | array b =>
        change (if op = .add then Except.ok (Computed.mk (.array
            ((recode ρ h).items a ++ (recode ρ h).items b)) [])
          else _) = recode ρ (if op = .add then _ else _)
        split
        · refine congrArg (fun items => Except.ok (Computed.mk (.array items) [])) ?_
          rw [Heap.items_recode, Heap.items_recode, recode_array, recode_array,
            recode_array, Array.map_append]
        · rfl
      | _ => rfl
    | char a =>
      cases right with
      | char b => exact (recode_comparison ρ op .char a b).symm
      | _ => rfl
    | rune a =>
      cases right with
      | rune b => exact (recode_comparison ρ op .rune a b).symm
      | _ => rfl
    | byte a =>
      cases right with
      | byte b => exact (recode_comparison ρ op .byte a b).symm
      | _ => rfl
    | variant a =>
      cases right with
      | variant b =>
        change (if a.enum = b.enum then comparison op .variant a.value b.value
          else _) = recode ρ (if a.enum = b.enum then _ else _)
        split
        · exact (recode_comparison ρ op .variant a.value b.value).symm
        · rfl
      | _ => rfl
    | _ => cases right <;> rfl

end Operator

end Script
