import Mathlib.Data.List.Perm.Subperm
import Script.Proofs.Value.Pairing

/-!
# Equality of shared and cyclic data

Two containers are equal if they cannot be told apart: no path leads from both to values
that differ on the face of it.  That a pair which is being compared already counts as
equal is right since a difference has a shortest path that leads to it.
-/

namespace Script

open Std (ExtTreeMap)

namespace Heap

variable {h : Heap} {path : List (Ref × Ref)} {r s : Ref}

/-! ### Differences -/

variable (h) in
/-- Two containers have parts at the same positions, under the same keys or in the
fields of the same struct. -/
def SameOutline : Ref → Ref → Prop
  | .array a, .array b => (h.items a).size = (h.items b).size
  | .map a, .map b => ∀ id, id ∈ h.entries a ↔ id ∈ h.entries b
  | .record a, .record b => (h.instanceAt a).struct.id = (h.instanceAt b).struct.id
  | _, _ => False

variable (h) in
/-- Two values differ on the face of it: they are containers of one kind with different
outlines, or other values that cannot be compared or are not equal. -/
def Differ (v w : Value) : Prop :=
  match v.refs? w with
  | some (r, s) => ¬ h.SameOutline r s
  | none => v.plainEqual? w ≠ some true

theorem sameOutline_self (r : Ref) : h.SameOutline r r := by
  cases r with
  | array | record => rfl
  | map => exact fun _ => Iff.rfl

theorem sameOutline_comm : h.SameOutline r s ↔ h.SameOutline s r := by
  cases r <;> cases s <;> first | exact eq_comm | exact forall_congr' fun _ => Iff.comm | rfl

variable (h) in
/-- What a comparison of two values relies on.  References to structs lead to what was
declared, so the records that are met have the same struct or another one. -/
structure SoundFor (v w : Value) : Prop where
  proper : h.Proper
  structs : ∀ way way' a b, h.Leads v way (.record a) → h.Leads w way' (.record b) →
    (h.instanceAt a).struct.id = (h.instanceAt b).struct.id →
    (h.instanceAt a).struct = (h.instanceAt b).struct

theorem SoundFor.symm {v w : Value} (hsound : h.SoundFor v w) : h.SoundFor w v where
  proper := hsound.proper
  structs := fun way way' a b ha hb hid => (hsound.structs way' way b a hb ha hid.symm).symm

theorem SoundFor.part {v w u u' : Value} {sel sel' : Selector} (hsound : h.SoundFor v w)
    (hv : v.ref? = some r) (hw : w.ref? = some s) (hu : (sel, u) ∈ h.parts r)
    (hu' : (sel', u') ∈ h.parts s) : h.SoundFor u u' where
  proper := hsound.proper
  structs := fun _ _ a b ha hb => hsound.structs _ _ a b (.through hv hu ha)
    (.through hw hu' hb)

theorem Proper.complete_instanceAt (hproper : h.Proper) (cell : Nat) :
    (h.instanceAt cell).Complete := by
  by_cases hcell : cell < h.records.size
  · exact hproper.complete cell hcell
  · rw [show h.instanceAt cell = default by simp [instanceAt, Array.getD, hcell]]
    exact fun name => by
      simp [default, instInhabitedRecord.default, instInhabitedStructDef.default]

/-- There is one part for each position, key or field. -/
theorem parts_unique {sel : Selector} {u u' : Value}
    (hu : (sel, u) ∈ h.parts r) (hu' : (sel, u') ∈ h.parts r) : u = u' := by
  cases r with
  | array cell =>
    obtain ⟨i, rfl, hi⟩ := mem_parts_array.mp hu
    obtain ⟨j, hij, hj⟩ := mem_parts_array.mp hu'
    cases hij
    exact Option.some.inj (hi.symm.trans hj)
  | map cell =>
    obtain ⟨id, entry, hentry, rfl, rfl⟩ := mem_parts_map.mp hu
    obtain ⟨id', entry', hentry', hid, rfl⟩ := mem_parts_map.mp hu'
    cases hid
    rw [Option.some.inj (hentry.symm.trans hentry')]
  | record cell =>
    obtain ⟨name, -, rfl, rfl⟩ := mem_parts_record.mp hu
    obtain ⟨name', -, hname, rfl⟩ := mem_parts_record.mp hu'
    cases hname
    rfl

theorem leads_unique {v x y : Value} {way : List Selector}
    (hx : h.Leads v way x) (hy : h.Leads v way y) : x = y := by
  induction hx with
  | here v => cases hy; rfl
  | through hcontainer hpart _ ih =>
    cases hy with
    | through hcontainer' hpart' hrest =>
      rw [hcontainer] at hcontainer'
      cases hcontainer'
      rw [parts_unique hpart' hpart] at hrest
      exact ih hrest

/-- The fields of a record are its parts. -/
theorem Proper.mem_parts_record_iff (hproper : h.Proper) {cell : Nat} {sel : Selector}
    {u : Value} : (sel, u) ∈ h.parts (.record cell) ↔
      ∃ name, sel = .field name ∧ (h.instanceAt cell).fields[name]? = some u := by
  have hcomplete := hproper.complete_instanceAt cell
  rw [mem_parts_record]
  constructor
  · rintro ⟨name, hname, rfl, rfl⟩
    rw [← hcomplete, ← ExtTreeMap.isSome_getElem?_iff_mem] at hname
    obtain ⟨value, hvalue⟩ := Option.isSome_iff_exists.mp hname
    exact ⟨name, rfl, by rw [fieldAt, hvalue, Option.getD_some]⟩
  · rintro ⟨name, rfl, hfind⟩
    refine ⟨name, ?_, rfl, by rw [fieldAt, hfind, Option.getD_some]⟩
    rw [← hcomplete, ← ExtTreeMap.isSome_getElem?_iff_mem, hfind]
    rfl

/-- Maps with the same keys have as many entries. -/
theorem size_eq_of_mem_iff {table others : ExtTreeMap MapKey MapEntry}
    (hsame : ∀ id, id ∈ table ↔ id ∈ others) : table.size = others.size := by
  have hperm : table.keys.Perm others.keys :=
    (List.perm_ext_iff_of_nodup ExtTreeMap.nodup_keys ExtTreeMap.nodup_keys).mpr fun id => by
      rw [ExtTreeMap.mem_keys, ExtTreeMap.mem_keys, hsame]
  simpa using hperm.length_eq

/-- A map with as many entries as another one, which has all of its keys, has the same
keys. -/
theorem mem_iff_of_size_eq {table others : ExtTreeMap MapKey MapEntry}
    (hsize : table.size = others.size) (hkeys : ∀ id ∈ table, id ∈ others) (id : MapKey) :
    id ∈ table ↔ id ∈ others := by
  have hsub : table.keys ⊆ others.keys := fun id hid =>
    ExtTreeMap.mem_keys.mpr (hkeys id (ExtTreeMap.mem_keys.mp hid))
  have hperm : table.keys.Perm others.keys :=
    (List.subperm_of_subset ExtTreeMap.nodup_keys hsub).perm_of_length_le
      (by simp [hsize])
  rw [← ExtTreeMap.mem_keys, ← ExtTreeMap.mem_keys, hperm.mem_iff]

/-- Containers with the same outline are compared by the parts at the same positions,
under the same keys or in the same fields. -/
theorem SoundFor.pairs?_of_sameOutline (hsound : h.SoundFor r.value s.value)
    (hsame : h.SameOutline r s) :
    ∃ pairs, h.pairs? r s = some pairs ∧ ∀ u u', (u, u') ∈ pairs ↔
      ∃ sel, (sel, u) ∈ h.parts r ∧ (sel, u') ∈ h.parts s := by
  have hproper := hsound.proper
  cases r <;> cases s <;> first | exact hsame.elim | skip
  case array.array a b =>
    refine ⟨_, if_pos hsame, fun u u' => ?_⟩
    rw [List.mem_iff_getElem?]
    simp only [mem_parts_array, List.getElem?_zip_eq_some]
    grind
  case map.map a b =>
    have hkeys : (beside? MapEntry.value (h.entries a) (h.entries b)).isSome :=
      isSome_beside?_iff.mpr fun key => (hsame key).mp
    obtain ⟨pairs, hpairs⟩ := Option.isSome_iff_exists.mp hkeys
    refine ⟨pairs, (if_pos (size_eq_of_mem_iff hsame)).trans hpairs, fun u u' => ?_⟩
    rw [mem_of_beside?_eq_some hpairs]
    simp only [mem_parts_map]
    grind
  case record.record a b =>
    have hstruct := hsound.structs [] [] a b (.here _) (.here _) hsame
    have ha := hproper.complete_instanceAt a
    have hkeys : (beside? id (h.instanceAt a).fields (h.instanceAt b).fields).isSome :=
      isSome_beside?_iff.mpr fun name hname => by
        rwa [hproper.complete_instanceAt b name, ← hstruct, ← ha name]
    obtain ⟨pairs, hpairs⟩ := Option.isSome_iff_exists.mp hkeys
    refine ⟨pairs, (if_pos hsame).trans hpairs, fun u u' => ?_⟩
    rw [mem_of_beside?_eq_some hpairs]
    simp only [hproper.mem_parts_record_iff]
    grind

theorem sameOutline_of_pairs? {pairs : List (Value × Value)}
    (hpairs : h.pairs? r s = some pairs) : h.SameOutline r s := by
  cases r <;> cases s <;> try cases hpairs
  case array.array a b => exact (Option.ite_none_right_eq_some.mp hpairs).1
  case map.map a b =>
    obtain ⟨hsize, hbeside⟩ := Option.ite_none_right_eq_some.mp hpairs
    exact mem_iff_of_size_eq hsize
      (isSome_beside?_iff.mp (Option.isSome_iff_exists.mpr ⟨_, hbeside⟩))
  case record.record a b => exact (Option.ite_none_right_eq_some.mp hpairs).1

/-- Two containers that are not being compared already are equal if they have the same
outline and equal parts. -/
theorem SoundFor.equalOn?_new_iff (hsound : h.SoundFor r.value s.value)
    (hkind : r.value.kind = s.value.kind) (hnew : ¬ (r = s ∨ (r, s) ∈ path)) :
    h.equalOn? path r.value s.value = some true ↔
      h.SameOutline r s ∧ ∀ sel u u', (sel, u) ∈ h.parts r → (sel, u') ∈ h.parts s →
        h.equalOn? ((r, s) :: path) u u' = some true := by
  rw [equalOn?_new hkind hnew, Option.some.injEq]
  by_cases hsame : h.SameOutline r s
  · obtain ⟨pairs, hpairs, hmem⟩ := hsound.pairs?_of_sameOutline hsame
    rw [hpairs, allEqual, List.all_eq_true]
    simp only [beq_iff_eq, Prod.forall, hmem]
    grind
  · cases hpairs : h.pairs? r s with
    | none => simp [allEqual, hsame]
    | some pairs => exact absurd (sameOutline_of_pairs? hpairs) hsame

/-! ### What can be told apart -/

theorem differ_value_iff (hkind : r.value.kind = s.value.kind) :
    h.Differ r.value s.value ↔ ¬ h.SameOutline r s := by
  rw [Differ, Value.refs?_value hkind]

theorem differ_iff_of_refs?_eq_none {v w : Value} (hrefs : v.refs? w = none) :
    h.Differ v w ↔ v.plainEqual? w ≠ some true := by
  rw [Differ, hrefs]

theorem differ_comm {v w : Value} (hv : v.kind ≠ .float) (hw : w.kind ≠ .float) :
    h.Differ v w ↔ h.Differ w v := by
  cases hrefs : v.refs? w with
  | none =>
    have hback : w.refs? v = none := by rw [Value.refs?_comm, hrefs, Option.map_none]
    rw [differ_iff_of_refs?_eq_none hrefs, differ_iff_of_refs?_eq_none hback,
      Value.plainEqual?_comm hv hw]
  | some pair =>
    obtain ⟨rfl, rfl, hkind⟩ := Value.eq_of_refs? hrefs
    rw [differ_value_iff hkind, differ_value_iff hkind.symm, sameOutline_comm]

theorem not_differ_self {v : Value} (hfloat : v.kind ≠ .float) : ¬ h.Differ v v := by
  cases hcontainer : v.ref? with
  | none =>
    rw [differ_iff_of_refs?_eq_none (by simp [Value.refs?, hcontainer])]
    exact not_not.mpr (Value.plainEqual?_self (Value.isNaN_eq_false hfloat) hcontainer)
  | some r =>
    rw [Value.eq_of_ref? hcontainer, differ_value_iff rfl]
    exact not_not.mpr (sameOutline_self r)

variable (h) in
/-- No path leads from both values to values that differ. -/
def Alike (v w : Value) : Prop :=
  ∀ way x y, h.Leads v way x → h.Leads w way y → ¬ h.Differ x y

variable (h) in
/-- No path of at most that many steps leads from both values to values that differ. -/
def AlikeUpTo (n : Nat) (v w : Value) : Prop :=
  ∀ way x y, way.length ≤ n → h.Leads v way x → h.Leads w way y → ¬ h.Differ x y

variable (h) in
/-- No path leads from the value to a number with a fraction. -/
def Floatless (v : Value) : Prop :=
  ∀ way x, h.Leads v way x → x.kind ≠ .float

theorem AlikeUpTo.mono {m n : Nat} (hmn : m ≤ n) {v w : Value}
    (halike : h.AlikeUpTo n v w) : h.AlikeUpTo m v w :=
  fun way x y hlength => halike way x y (Nat.le_trans hlength hmn)

theorem Floatless.part {v u : Value} {sel : Selector} (hfloats : h.Floatless v)
    (hv : v.ref? = some r) (hu : (sel, u) ∈ h.parts r) : h.Floatless u :=
  fun way x hx => hfloats (sel :: way) x (.through hv hu hx)

theorem Floatless.alikeUpTo_self {v : Value} (hfloats : h.Floatless v) (n : Nat) :
    h.AlikeUpTo n v v := by
  intro way x y _ hx hy
  obtain rfl := leads_unique hx hy
  exact not_differ_self (hfloats way x hx)

theorem plainEqual?_of_ref? {v w : Value} (hv : v.ref? = some r) (hw : w.ref? = some s) :
    v.plainEqual? w = none := by
  rw [Value.eq_of_ref? hv, Value.eq_of_ref? hw]
  cases r <;> cases s <;> rfl

/-- Values that are not two containers of one kind have nothing behind them that could
differ. -/
theorem alike_of_plainEqual? {v w : Value} (hrefs : v.refs? w = none)
    (hequal : v.plainEqual? w = some true) : h.Alike v w := by
  intro way x y hx hy
  cases hx with
  | here =>
    cases hy with
    | here => exact fun hdiffer => (differ_iff_of_refs?_eq_none hrefs).mp hdiffer hequal
  | through hv _ _ =>
    cases hy with
    | through hw _ _ =>
      rw [plainEqual?_of_ref? hv hw] at hequal
      cases hequal

/-- What is found equal is alike, as far as this is so of the pairs that are being
compared.  By induction on the length of the paths: a difference that is reached from a
pair is reached from its parts with one step less. -/
theorem SoundFor.alikeUpTo_of_equalOn? {n : Nat} {v w : Value} (hsound : h.SoundFor v w)
    (hfloats : h.Floatless v) (hequal : h.equalOn? path v w = some true)
    (hpath : ∀ r s, (r, s) ∈ path → h.AlikeUpTo n r.value s.value) :
    h.AlikeUpTo n v w := by
  induction n using Nat.strongRecOn generalizing path v w with
  | ind n ih =>
    intro way x y hlength hx hy
    cases hrefs : v.refs? w with
    | none =>
      rw [equalOn?_of_refs?_eq_none hrefs] at hequal
      exact alike_of_plainEqual? hrefs hequal way x y hx hy
    | some pair =>
      obtain ⟨r, s⟩ := pair
      obtain ⟨rfl, rfl, hkind⟩ := Value.eq_of_refs? hrefs
      by_cases hseen : r = s ∨ (r, s) ∈ path
      · rcases hseen with rfl | hmem
        · exact hfloats.alikeUpTo_self n way x y hlength hx hy
        · exact hpath r s hmem way x y hlength hx hy
      · obtain ⟨houtline, hparts⟩ := (hsound.equalOn?_new_iff hkind hseen).mp hequal
        cases hx with
        | here =>
          cases hy with
          | here => exact fun hdiffer => (differ_value_iff hkind).mp hdiffer houtline
        | @through _ u _ r' sel way hv hu hrest =>
          cases hy with
          | @through _ u' _ s' _ _ hw hu' hrest' =>
            have hless : way.length < n := hlength
            have hbelow : ∀ r s, (r, s) ∈ path → h.AlikeUpTo way.length r.value s.value :=
              fun r s hmem => (hpath r s hmem).mono (Nat.le_of_lt hless)
            have hpair := ih way.length hless hsound hfloats hequal hbelow
            rw [Ref.ref?_value, Option.some.injEq] at hv hw
            subst hv hw
            refine ih way.length hless (hsound.part (r.ref?_value) (s.ref?_value) hu hu')
              (hfloats.part r.ref?_value hu) (hparts sel u u' hu hu')
              (fun r' s' hmem => ?_) way x y (Nat.le_refl _) hrest hrest'
            rcases List.mem_cons.mp hmem with heq | hmem
            · obtain ⟨rfl, rfl⟩ := Prod.mk.inj heq
              exact hpair
            · exact hbelow r' s' hmem

/-- What cannot be told apart is found equal, whatever is being compared.  By induction on
the number of pairs that are not on the path. -/
theorem SoundFor.equalOn?_of_alike {n : Nat} (hn : offPath h.refPairs path < n)
    {v w : Value} (hsound : h.SoundFor v w) (halike : h.Alike v w) :
    h.equalOn? path v w = some true := by
  induction n generalizing path v w with
  | zero => cases hn
  | succ n ih =>
    have hhere := halike [] v w (.here v) (.here w)
    cases hrefs : v.refs? w with
    | none =>
      rw [equalOn?_of_refs?_eq_none hrefs]
      exact not_not.mp ((differ_iff_of_refs?_eq_none hrefs).not.mp hhere)
    | some pair =>
      obtain ⟨r, s⟩ := pair
      obtain ⟨rfl, rfl, hkind⟩ := Value.eq_of_refs? hrefs
      by_cases hseen : r = s ∨ (r, s) ∈ path
      · exact equalOn?_seen hkind hseen
      · rw [hsound.equalOn?_new_iff hkind hseen]
        refine ⟨not_not.mp ((differ_value_iff hkind).not.mp hhere),
          fun sel u u' hu hu' => ?_⟩
        have hfewer := offPath_cons_lt
          (mem_refPairs (mem_refs_of_part hu) (mem_refs_of_part hu')) (not_or.mp hseen).2
        refine ih (by omega) (hsound.part r.ref?_value s.ref?_value hu hu') ?_
        exact fun way x y hx hy => halike (sel :: way) x y
          (.through r.ref?_value hu hx) (.through s.ref?_value hu' hy)

theorem SoundFor.equal?_iff_alike {v w : Value} (hsound : h.SoundFor v w)
    (hfloats : h.Floatless v) : h.equal? v w = some true ↔ h.Alike v w := by
  refine ⟨fun hequal way x y => ?_,
    fun halike => hsound.equalOn?_of_alike (Nat.lt_succ_self _) halike⟩
  exact hsound.alikeUpTo_of_equalOn? hfloats hequal nofun way x y (Nat.le_refl _)

theorem Alike.symm {v w : Value} (halike : h.Alike v w) (hv : h.Floatless v)
    (hw : h.Floatless w) : h.Alike w v :=
  fun way y x hy hx => (differ_comm (hw way y hy) (hv way x hx)).not.mpr
    (halike way x y hx hy)

/-- Two containers of one kind can always be compared. -/
theorem equal?_containers {v w : Value} (hrefs : v.refs? w = some (r, s)) :
    ∃ answer, h.equal? v w = some answer := by
  obtain ⟨rfl, rfl, hkind⟩ := Value.eq_of_refs? hrefs
  by_cases hseen : r = s ∨ (r, s) ∈ []
  · exact ⟨_, equalOn?_seen hkind hseen⟩
  · exact ⟨_, equalOn?_new hkind hseen⟩

theorem SoundFor.equal?_comm {v w : Value} (hsound : h.SoundFor v w) (hv : h.Floatless v)
    (hw : h.Floatless w) : h.equal? v w = h.equal? w v := by
  cases hrefs : v.refs? w with
  | none =>
    have hback : w.refs? v = none := by rw [Value.refs?_comm, hrefs, Option.map_none]
    rw [equal?, equal?, equalOn?_of_refs?_eq_none hrefs, equalOn?_of_refs?_eq_none hback]
    exact Value.plainEqual?_comm (hv [] v (.here v)) (hw [] w (.here w))
  | some pair =>
    have hback : w.refs? v = some pair.swap := by
      rw [Value.refs?_comm, hrefs, Option.map_some]
    obtain ⟨answer, hanswer⟩ := equal?_containers hrefs
    obtain ⟨answer', hanswer'⟩ := equal?_containers hback
    have hforth := hsound.equal?_iff_alike hv
    have hback := hsound.symm.equal?_iff_alike hw
    rw [hanswer, Option.some.injEq] at hforth
    rw [hanswer', Option.some.injEq] at hback
    rw [hanswer, hanswer', Option.some.injEq, Bool.eq_iff_iff, hforth, hback]
    exact ⟨fun halike => halike.symm hv hw, fun halike => halike.symm hw hv⟩

/-- Comparing two values ends, and it does not matter which one is the left one.  They are
equal if no path of positions, keys and field names leads from both to values that differ
on the face of it.  For containers of one kind there is always an answer. -/
theorem equality_is_bisimilarity {v w : Value} (hsound : h.SoundFor v w)
    (hv : h.Floatless v) (hw : h.Floatless w) :
    (∀ bound, h.refPairs.length < bound →
      h.equalWithin? bound [] v w = some (h.equal? v w)) ∧
    h.equal? v w = h.equal? w v ∧
    (h.equal? v w = some true ↔
      ∀ path x y, h.Leads v path x → h.Leads w path y → ¬ h.Differ x y) ∧
    (∀ r s, v.refs? w = some (r, s) → ∃ answer, h.equal? v w = some answer) :=
  ⟨fun bound hbound => equalWithin?_eq (by rwa [offPath_nil]),
    hsound.equal?_comm hv hw, hsound.equal?_iff_alike hv, fun _ _ => equal?_containers⟩

/-! ### Two heaps -/

theorem soundFor_of_structs (hproper : h.Proper)
    (hstructs : ∀ a b, (h.instanceAt a).struct.id = (h.instanceAt b).struct.id →
      (h.instanceAt a).struct = (h.instanceAt b).struct) (v w : Value) : h.SoundFor v w where
  proper := hproper
  structs := fun _ _ a b _ _ => hstructs a b

theorem floatless_of_parts
    (hparts : ∀ r ∈ h.refs, ∀ part ∈ h.parts r, part.2.kind ≠ .float)
    {v : Value} (hv : v.kind ≠ .float) : h.Floatless v := by
  intro way x hx
  induction hx with
  | here v => exact hv
  | @through v u x r sel way _ hpart _ ih =>
    exact ih (hparts r (mem_refs_of_part hpart) _ hpart)

/-- Two arrays with a map each that contains the array around it. -/
def twoCycles : Heap where
  arrays := #[#[.int 1, .map 0], #[.int 1, .map 1]]
  maps := #[ExtTreeMap.insert ∅ (Value.textKey "up") ⟨.str "up", .array 0⟩,
    ExtTreeMap.insert ∅ (Value.textKey "up") ⟨.str "up", .array 1⟩]

theorem equality_is_bisimilarity_twoCycles :
    twoCycles.equal? (.array 0) (.array 1) = some true ∧
      ∀ path x y, twoCycles.Leads (.array 0) path x → twoCycles.Leads (.array 1) path y →
        ¬ twoCycles.Differ x y := by
  have hproper : twoCycles.Proper := proper_of_maps rfl <| List.forall_mem_cons.mpr
    ⟨Keyed.empty.insert rfl _, List.forall_mem_singleton.mpr
      (Keyed.empty.insert rfl _)⟩
  have hsound := soundFor_of_structs hproper (fun _ _ _ => rfl) (.array 0) (.array 1)
  have hparts : ∀ r ∈ twoCycles.refs, ∀ part ∈ twoCycles.parts r,
      part.2.kind ≠ .float := by decide +kernel
  obtain ⟨hends, -, hiff, -⟩ := equality_is_bisimilarity hsound
    (floatless_of_parts hparts (by decide)) (floatless_of_parts hparts (by decide))
  have hequal : twoCycles.equal? (.array 0) (.array 1) = some true :=
    (Option.some.inj ((hends 20 (by decide)).symm.trans (by decide +kernel)))
  exact ⟨hequal, hiff.mp hequal⟩

/-- An array of a character, and one of the string of that character. -/
def charBesideString : Heap := { arrays := #[#[.char 'x'], #[.str "x"]] }

/-- Values of different kinds may be equal. -/
theorem equal_despite_kinds :
    charBesideString.SoundFor (.array 0) (.array 1) ∧
      charBesideString.Floatless (.array 0) ∧ charBesideString.Floatless (.array 1) ∧
      charBesideString.equal? (.array 0) (.array 1) = some true ∧
      ∃ path x y, charBesideString.Leads (.array 0) path x ∧
        charBesideString.Leads (.array 1) path y ∧ x.kind ≠ y.kind := by
  have hproper : charBesideString.Proper := proper_of_maps rfl (List.forall_mem_nil _)
  have hparts : ∀ r ∈ charBesideString.refs, ∀ part ∈ charBesideString.parts r,
      part.2.kind ≠ .float := by decide
  refine ⟨soundFor_of_structs hproper (fun _ _ _ => rfl) _ _,
    floatless_of_parts hparts (by decide), floatless_of_parts hparts (by decide), ?_,
    [.position 0], .char 'x', .str "x", ?_, ?_, by decide⟩
  · have hends : charBesideString.equalWithin? 5 [] (.array 0) (.array 1) =
        some (charBesideString.equal? (.array 0) (.array 1)) := equalWithin?_eq (by decide)
    exact Option.some.inj (hends.symm.trans (by decide +kernel))
  · exact leads_part rfl (List.mem_singleton.mpr rfl)
  · exact leads_part rfl (List.mem_singleton.mpr rfl)

end Heap

end Script
