import Script.Proofs.Value.Contents
import Script.Proofs.Value.Paths

/-!
# How containers are compared

Two containers of one kind are compared through the pairs of their parts, and a pair of
containers that is being compared already counts as equal.  Each step to a new pair
leaves fewer of them off the path, so the comparison ends however the containers are
tied together.
-/

namespace Script

open Std (ExtTreeMap LawfulEqOrd TransOrd)

/-! ### Values beside one another -/

namespace Value

/-- The containers that two values of one kind stand for. -/
def refs? (v w : Value) : Option (Ref × Ref) :=
  if v.kind = w.kind then v.ref?.bind fun r => w.ref?.map fun s => (r, s) else none

theorem eq_of_refs? {v w : Value} {r s : Ref} (hrefs : v.refs? w = some (r, s)) :
    v = r.value ∧ w = s.value ∧ v.kind = w.kind := by
  obtain ⟨hkind, hboth⟩ := Option.ite_none_right_eq_some.mp hrefs
  obtain ⟨r', hr, hright⟩ := Option.bind_eq_some_iff.mp hboth
  obtain ⟨s', hs, hpair⟩ := Option.map_eq_some_iff.mp hright
  obtain ⟨rfl, rfl⟩ := Prod.mk.inj hpair
  exact ⟨eq_of_ref? hr, eq_of_ref? hs, hkind⟩

theorem refs?_value {r s : Ref} (hkind : r.value.kind = s.value.kind) :
    r.value.refs? s.value = some (r, s) := by
  simp [refs?, hkind]

theorem refs?_comm (v w : Value) : v.refs? w = (w.refs? v).map Prod.swap := by
  by_cases hkind : v.kind = w.kind
  · rw [refs?, if_pos hkind, refs?, if_pos hkind.symm]
    cases v.ref? <;> cases w.ref? <;> rfl
  · rw [refs?, if_neg hkind, refs?, if_neg (Ne.symm hkind)]
    rfl

theorem plainEqual?_comm {v w : Value} (hv : v.kind ≠ .float) (hw : w.kind ≠ .float) :
    v.plainEqual? w = w.plainEqual? v := by
  cases v with
  | float x => exact absurd rfl hv
  | _ =>
    cases w with
    | float x => exact absurd rfl hw
    | _ => first | rfl | simp only [plainEqual?, BEq.comm]

/-- Whether a value is a number that is not equal to itself. -/
def isNaN : Value → Bool
  | .float x => x.isNaN
  | _ => false

theorem isNaN_eq_false {v : Value} (hfloat : v.kind ≠ .float) : v.isNaN = false := by
  cases v with
  | float x => exact absurd rfl hfloat
  | _ => rfl

theorem float_beq_self {x : Float} (hx : x.isNaN = false) : (x == x) = true := by
  change x.toModel.unpack.isNaN = false at hx
  change x.toModel.unpack.beq x.toModel.unpack = true
  revert hx
  generalize x.toModel.unpack = unpacked
  intro hx
  cases unpacked with
  | notANumber => cases hx
  | zero sign => rfl
  | infinity sign => cases sign <;> rfl
  | finite sign mantissa exponent =>
    have hthen : (compare exponent exponent).then (compare mantissa mantissa) = .eq := by
      rw [Int.compare_eq_eq.mpr rfl, Nat.compare_eq_eq.mpr rfl, Ordering.eq_then]
    have hswap : ((compare exponent exponent).then (compare mantissa mantissa)).swap = .eq := by
      rw [hthen, Ordering.swap_eq]
    cases sign with
    | negative => exact beq_of_eq (congrArg some hswap)
    | positive => exact beq_of_eq (congrArg some hthen)

theorem plainEqual?_self {v : Value} (hnan : v.isNaN = false) (hplain : v.ref? = none) :
    v.plainEqual? v = some true := by
  cases v with
  | float x => exact congrArg some (float_beq_self hnan)
  | _ => simp_all [plainEqual?, ref?]

end Value

/-! ### Tables beside one another -/

section

variable {κ β : Type} [Ord κ] [TransOrd κ]

/-- The values of a table beside those that another one has under the same keys;
nothing if it does not have all of them. -/
def beside? (value : β → Value) (table others : ExtTreeMap κ β) :
    Option (List (Value × Value)) :=
  table.toList.mapM fun entry =>
    others[entry.1]?.map fun other => (value entry.2, value other)

variable [LawfulEqOrd κ] {value : β → Value} {table others : ExtTreeMap κ β}

theorem isSome_beside?_iff :
    (beside? value table others).isSome ↔ ∀ key ∈ table, key ∈ others := by
  rw [beside?, isSome_mapM_iff]
  simp only [Option.isSome_map, ExtTreeMap.isSome_getElem?_iff_mem, Prod.forall,
    ExtTreeMap.mem_toList_iff_getElem?_eq_some]
  refine forall_congr' fun key => ?_
  rw [← forall_exists_index (p := fun x => table[key]? = some x) (q := fun _ => key ∈ others),
    ← Option.isSome_iff_exists, ExtTreeMap.isSome_getElem?_iff_mem]

theorem mem_of_beside?_eq_some {pairs : List (Value × Value)}
    (hpairs : beside? value table others = some pairs) {u v : Value} :
    (u, v) ∈ pairs ↔ ∃ (key : κ) (x y : β), table[key]? = some x ∧ others[key]? = some y ∧
      u = value x ∧ v = value y := by
  rw [mem_of_mapM_eq_some hpairs]
  simp only [Option.map_eq_some_iff, Prod.exists, Prod.mk.injEq,
    ExtTreeMap.mem_toList_iff_getElem?_eq_some]
  grind

end

namespace Heap

variable (h : Heap)

/-! ### Comparing the parts -/

/-- The pairs of parts that two containers are compared by; nothing if they differ
without that. -/
def pairs? : Ref → Ref → Option (List (Value × Value))
  | .array a, .array b =>
    if (h.items a).size = (h.items b).size then
      some ((h.items a).toList.zip (h.items b).toList)
    else none
  | .map a, .map b =>
    if (h.entries a).size = (h.entries b).size then
      beside? MapEntry.value (h.entries a) (h.entries b)
    else none
  | .record a, .record b =>
    if (h.instanceAt a).struct.id = (h.instanceAt b).struct.id then
      beside? id (h.instanceAt a).fields (h.instanceAt b).fields
    else none
  | _, _ => none

/-- Whether all pairs are equal, and there are such. -/
def allEqual (path : List (Ref × Ref)) : Option (List (Value × Value)) → Bool
  | none => false
  | some pairs => pairs.all fun pair => h.equalOn? path pair.1 pair.2 == some true

theorem getD_false_eq (answer : Option Bool) :
    answer.getD false = (answer == some true) := by
  rcases answer with _ | _ | _ <;> rfl

theorem valuesEqual_eq {κ β : Type} [Ord κ] [TransOrd κ] (path : List (Ref × Ref))
    (value : β → Value) (table others : ExtTreeMap κ β) :
    h.valuesEqual path value table others =
      h.allEqual path (beside? value table others) := by
  rw [valuesEqual, beside?]
  induction table.toList with
  | nil => rfl
  | cons entry entries ih =>
    rw [List.all_cons, ih, List.mapM_cons]
    cases others[entry.1]? with
    | none => rfl
    | some other =>
      cases entries.mapM fun entry =>
        others[entry.1]?.map fun other => (value entry.2, value other) with
      | none => simp [allEqual]
      | some pairs => simp [allEqual, getD_false_eq]

variable {h} {path : List (Ref × Ref)} {r s : Ref}

theorem equalOn?_seen (hkind : r.value.kind = s.value.kind) (hseen : r = s ∨ (r, s) ∈ path) :
    h.equalOn? path r.value s.value = some true := by
  cases r <;> cases s <;> try cases hkind
  all_goals
    rw [Ref.value, Ref.value, equalOn?, if_pos]
    simpa using hseen

theorem equalOn?_new (hkind : r.value.kind = s.value.kind)
    (hnew : ¬ (r = s ∨ (r, s) ∈ path)) :
    h.equalOn? path r.value s.value =
      some (h.allEqual ((r, s) :: path) (h.pairs? r s)) := by
  cases r with
  | array a =>
    cases s with
    | array b =>
      rw [Ref.value, Ref.value, equalOn?_array h (by simpa using hnew), pairs?]
      by_cases hsize : (h.items a).size = (h.items b).size
      · rw [if_pos hsize, hsize]
        simp [allEqual, pairsEqual, getD_false_eq]
      · simp [hsize, allEqual]
    | map | record => cases hkind
  | map a =>
    cases s with
    | map b =>
      rw [Ref.value, Ref.value, equalOn?_map h (by simpa using hnew), pairs?,
        valuesEqual_eq]
      by_cases hsize : (h.entries a).size = (h.entries b).size
      · simp [hsize]
      · simp [hsize, allEqual]
    | array | record => cases hkind
  | record a =>
    cases s with
    | record b =>
      rw [Ref.value, Ref.value, equalOn?_record h (by simpa using hnew), pairs?,
        valuesEqual_eq]
      by_cases hid : (h.instanceAt a).struct.id = (h.instanceAt b).struct.id
      · simp [hid]
      · simp [hid, allEqual]
    | array | map => cases hkind

theorem equalOn?_of_refs?_eq_none {v w : Value} (hrefs : v.refs? w = none) :
    h.equalOn? path v w = v.plainEqual? w := by
  refine equalOn?_plain h fun ⟨hkind, hcontainer⟩ => ?_
  have hsome : ∀ {u : Value}, u.kind ∈ containers → ∃ r, u.ref? = some r := fun hu =>
    Option.ne_none_iff_exists'.mp fun hnone => Value.ref?_eq_none_iff.mp hnone hu
  obtain ⟨r, hr⟩ := hsome hcontainer
  obtain ⟨s, hs⟩ := hsome (hkind ▸ hcontainer)
  rw [Value.refs?, if_pos hkind, hr, hs] at hrefs
  cases hrefs

theorem equalOn?_self {v : Value} (hnan : v.isNaN = false) :
    h.equalOn? path v v = some true := by
  cases hcontainer : v.ref? with
  | none =>
    rw [equalOn?_of_refs?_eq_none (by simp [Value.refs?, hcontainer])]
    exact Value.plainEqual?_self hnan hcontainer
  | some r =>
    rw [Value.eq_of_ref? hcontainer]
    exact equalOn?_seen rfl (Or.inl rfl)

/-! ### The comparison ends -/

/-- Only pairs of containers of the heap have pairs of parts. -/
theorem mem_refPairs_of_pairs? {pairs : List (Value × Value)}
    (hpairs : h.pairs? r s = some pairs) {pair : Value × Value} (hpair : pair ∈ pairs) :
    (r, s) ∈ h.refPairs := by
  cases r <;> cases s <;> try cases hpairs
  case array.array a b =>
    obtain ⟨-, hzip⟩ := Option.ite_none_right_eq_some.mp hpairs
    obtain rfl := Option.some.inj hzip
    have hmem := List.of_mem_zip (show (pair.1, pair.2) ∈ _ from hpair)
    exact mem_refPairs (array_mem_refs hmem.1) (array_mem_refs hmem.2)
  case map.map a b =>
    obtain ⟨-, hbeside⟩ := Option.ite_none_right_eq_some.mp hpairs
    obtain ⟨key, x, y, hx, hy, -⟩ :=
      (mem_of_beside?_eq_some hbeside).mp (show (pair.1, pair.2) ∈ _ from hpair)
    exact mem_refPairs (map_mem_refs hx) (map_mem_refs hy)
  case record.record a b =>
    obtain ⟨-, hbeside⟩ := Option.ite_none_right_eq_some.mp hpairs
    obtain ⟨key, x, y, hx, hy, -⟩ :=
      (mem_of_beside?_eq_some hbeside).mp (show (pair.1, pair.2) ∈ _ from hpair)
    exact mem_refPairs (record_mem_refs hx) (record_mem_refs hy)

variable (h) in
/-- What a comparison answers, if it is found with fewer than that many pairs of
containers inside one another. -/
def equalWithin? : Nat → List (Ref × Ref) → Value → Value → Option (Option Bool)
  | 0, _, _, _ => none
  | n + 1, path, v, w =>
    match v.refs? w with
    | none => some (v.plainEqual? w)
    | some (r, s) =>
      if r = s ∨ path.contains (r, s) then some (some true)
      else
        match h.pairs? r s with
        | none => some (some false)
        | some pairs =>
          (pairs.mapM fun pair => equalWithin? n ((r, s) :: path) pair.1 pair.2).map
            fun answers => some (answers.all (· == some true))

/-- By induction on the bound, which is larger than the number of pairs that are not on
the path. -/
theorem equalWithin?_eq {n : Nat} {v w : Value} (hn : offPath h.refPairs path < n) :
    h.equalWithin? n path v w = some (h.equalOn? path v w) := by
  induction n generalizing path v w with
  | zero => cases hn
  | succ n ih =>
    rw [equalWithin?]
    cases hrefs : v.refs? w with
    | none => rw [equalOn?_of_refs?_eq_none hrefs]
    | some pair =>
      obtain ⟨r, s⟩ := pair
      obtain ⟨rfl, rfl, hkind⟩ := Value.eq_of_refs? hrefs
      dsimp only
      by_cases hseen : r = s ∨ (r, s) ∈ path
      · rw [if_pos (hseen.imp_right List.contains_iff_mem.mpr), equalOn?_seen hkind hseen]
      · rw [if_neg (mt (Or.imp_right List.contains_iff_mem.mp) hseen),
          equalOn?_new hkind hseen]
        cases hpairs : h.pairs? r s with
        | none => rfl
        | some pairs =>
          have hparts : ∀ pair ∈ pairs, h.equalWithin? n ((r, s) :: path) pair.1 pair.2 =
              some (h.equalOn? ((r, s) :: path) pair.1 pair.2) := fun pair hpair => by
            have hfewer := offPath_cons_lt (mem_refPairs_of_pairs? hpairs hpair)
              (not_or.mp hseen).2
            exact ih (by omega)
          simp only [mapM_eq_some_map hparts, Option.map_some, allEqual, List.all_map]
          rfl

end Heap

end Script
