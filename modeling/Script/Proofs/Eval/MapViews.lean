import Script.Proofs.Eval.Calls
import Script.Proofs.Value.MapOrder

/-!
# What is shown of a map

A map can be looked at in many ways: its keys and its values can be listed, a loop goes
through it, its entries are counted, looked up and called.  All of these show the same
entries, and those that have an order show them in the same one.  Which one it is does
not depend on how the map was built.
-/

namespace Script

open Scope (FrameId)
open Std (ExtTreeMap)

/-- Goes through the items, one round for each, until a round is the last one. -/
def Eval.goThrough {α : Type} (round : α → Eval Bool) : List α → Eval Value
  | [] => return .null
  | x :: xs => do
    if ← round x then goThrough round xs else return .null

theorem Evaluator.walkPairs_eq (ev : Evaluator) (names : LoopNames) (body : Block)
    (frame : FrameId) (keyed : Bool) (pairs : List (Value × Value)) :
    ev.walkPairs names body frame keyed pairs =
      Eval.goThrough (fun pair => ev.roundWith names body frame keyed pair.1 pair.2)
        pairs := by
  induction pairs with
  | nil => rfl
  | cons pair pairs ih => rw [walkPairs, ih]; rfl

theorem Eval.goThrough_map {α β : Type} (f : α → β) (round : β → Eval Bool) (xs : List α) :
    goThrough round (xs.map f) = goThrough (fun x => round (f x)) xs := by
  induction xs with
  | nil => rfl
  | cons x xs ih => rw [List.map_cons, goThrough, ih, goThrough]

namespace Machine

/-- The value is an array with these items. -/
def IsList (m : Machine) (v : Value) (items : List Value) : Prop :=
  ∃ cell, v = .array cell ∧ (m.heap.items cell).toList = items

/-- At a position the keys and the values show an entry, whose value the map has under
its key, or there is nothing at the position. -/
def ListsEntry (m : Machine) (cell : Nat) (keys values : Value) (entries : List MapEntry)
    (i : Int64) : Prop :=
  (∃ entry, entries[i.toInt.toNat]? = some entry ∧
    m.heap.element keys (.int i) = .ok entry.key ∧
    m.heap.element values (.int i) = .ok entry.value ∧
    m.heap.element (.map cell) entry.key = .ok entry.value ∧
    ∀ (ev : Evaluator) loc,
      ev.call (.builtin .contains) [.map cell, entry.key] loc m = .done (.bool true) m) ∨
  (i < 0 ∨ entries.length ≤ i.toInt.toNat) ∧
    ∃ problem, m.heap.element keys (.int i) = .error problem ∧
      m.heap.element values (.int i) = .error problem

/-- What is shown of a map is these entries, in this order. -/
structure ShowsMap (m : Machine) (cell : Nat) (entries : List MapEntry) : Prop where
  /-- They are what the map holds, -/
  whole : entries.Perm ((m.heap.entries cell).toList.map (·.2))
  /-- and each key is there once. -/
  once : (entries.map (·.key.mapKey?)).Nodup
  len : ∀ (ev : Evaluator) loc, ev.call (.builtin .len) [.map cell] loc m =
    .done (.int (Int64.ofNat entries.length)) m
  /-- A loop with two names goes once through the entries, with key and value. -/
  pairs : ∀ (ev : Evaluator) (key value : String) iterable body frame m₀,
    ev.expr iterable frame m₀ = .done (.map cell) m →
    ev.forEach (.two key value) iterable body frame m₀ =
      Eval.goThrough (fun entry => Eval.inChild frame fun scope => do
        Eval.define scope key entry.key
        Eval.define scope value entry.value
        Eval.goesOn (ev.block body scope)) entries m
  /-- A loop with one name goes once through the entries, with the key. -/
  keysOnly : ∀ (ev : Evaluator) (key : String) iterable body frame m₀,
    ev.expr iterable frame m₀ = .done (.map cell) m →
    ev.forEach (.one key) iterable body frame m₀ =
      Eval.goThrough (fun entry => Eval.inChild frame fun scope => do
        Eval.define scope key entry.key
        Eval.goesOn (ev.block body scope)) entries m
  /-- The keys and the values are listed in new arrays, entry by entry. -/
  listed : ∀ (ev : Evaluator) loc loc', ∃ keys m₁ values m₂,
    ev.call (.builtin .keys) [.map cell] loc m = .done keys m₁ ∧
    ev.call (.builtin .values) [.map cell] loc' m₁ = .done values m₂ ∧
    m₂.IsList keys (entries.map (·.key)) ∧ m₂.IsList values (entries.map (·.value)) ∧
    ∀ i, m₂.ListsEntry cell keys values entries i
  /-- What can be a key is found if it stands for the same as one of the keys, and
  otherwise there is null. -/
  lookup : ∀ (ev : Evaluator) (k : Value) id loc, k.mapKey? = some id →
    (∃ entry ∈ entries, entry.key.mapKey? = some id ∧
      ev.call (.builtin .contains) [.map cell, k] loc m = .done (.bool true) m ∧
      m.heap.element (.map cell) k = .ok entry.value) ∨
    (∀ entry ∈ entries, entry.key.mapKey? ≠ some id) ∧
      ev.call (.builtin .contains) [.map cell, k] loc m = .done (.bool false) m ∧
      m.heap.element (.map cell) k = .ok .null
  /-- A member is the value under its name, and so is what is called as a member. -/
  member : ∀ (ev : Evaluator) name args frame loc, ∃ value,
    m.heap.element (.map cell) (.str name) = .ok value ∧
    m.heap.member (.map cell) name = .ok value ∧
    (value.isCallable = true →
      ev.callMember (.map cell) name args frame loc m = ev.call value args loc m) ∧
    (value.isCallable = false → ∃ free, Eval.freeFunction? frame name m = .done free m ∧
      ev.callMember (.map cell) name args frame loc m =
        ev.callFree free (.map cell) args (.memberAccess Kind.map.tag name) loc m)

/-! ### Entries and keys -/

section

variable {table : ExtTreeMap MapKey MapEntry} {entries : List MapEntry}
  (hkeyed : Keyed table) (hwhole : entries.Perm (table.toList.map (·.2)))
include hkeyed hwhole

theorem nodup_mapKeys : (entries.map (·.key.mapKey?)).Nodup := by
  have hkeys : (table.toList.map (·.2)).map (·.key.mapKey?) = table.keys.map some := by
    rw [← ExtTreeMap.map_fst_toList_eq_keys, List.map_map, List.map_map]
    exact List.map_congr_left fun entry hentry => hkeyed.of_mem hentry
  rw [(hwhole.map _).nodup_iff, hkeys]
  exact List.Pairwise.map some (fun _ _ hne heq => hne (Option.some.inj heq))
    ExtTreeMap.nodup_keys

theorem getElem?_eq_some_iff (id : MapKey) (entry : MapEntry) :
    table[id]? = some entry ↔ entry ∈ entries ∧ entry.key.mapKey? = some id := by
  rw [hwhole.mem_iff, List.mem_map]
  constructor
  · exact fun hfind => ⟨⟨_, ExtTreeMap.mem_toList_iff_getElem?_eq_some.mpr hfind, rfl⟩,
      hkeyed id entry hfind⟩
  · rintro ⟨⟨⟨id', entry⟩, hmem, rfl⟩, hid⟩
    obtain rfl : id' = id := Option.some.inj ((hkeyed.of_mem hmem).symm.trans hid)
    exact ExtTreeMap.mem_toList_iff_getElem?_eq_some.mp hmem

/-- Either there is an entry under a key, or there is none that stands for it. -/
theorem getElem?_cases (id : MapKey) :
    (∃ entry ∈ entries, entry.key.mapKey? = some id ∧ table[id]? = some entry) ∨
      (∀ entry ∈ entries, entry.key.mapKey? ≠ some id) ∧ table[id]? = none := by
  cases hfind : table[id]? with
  | some entry =>
    obtain ⟨hentry, hkey⟩ := (getElem?_eq_some_iff hkeyed hwhole id entry).mp hfind
    exact Or.inl ⟨entry, hentry, hkey, rfl⟩
  | none =>
    refine Or.inr ⟨fun entry hentry hkey => ?_, rfl⟩
    have hthere := (getElem?_eq_some_iff hkeyed hwhole id entry).mpr ⟨hentry, hkey⟩
    rw [hthere] at hfind
    cases hfind

end

/-! ### Views -/

variable {m : Machine} {cell : Nat}

theorem call_contains (ev : Evaluator) {k : Value} {id : MapKey} (hk : k.mapKey? = some id)
    (loc : Location) : ev.call (.builtin .contains) [.map cell, k] loc m =
      .done (.bool (m.heap.entries cell)[id]?.isSome) m := by
  change Outcome.done (Value.bool (k.mapKey?.any (m.heap.entries cell).contains)) m = _
  rw [hk, ExtTreeMap.isSome_getElem?_eq_contains]
  rfl

theorem element_map {h : Heap} {k : Value} {id : MapKey} (hk : k.mapKey? = some id) :
    h.element (.map cell) k =
      .ok (((h.entries cell)[id]?.map MapEntry.value).getD .null) := by
  simp only [Heap.element, hk, Heap.entry]
  cases (h.entries cell)[id]? <;> rfl

theorem element_list {v : Value} {items : List Value} (hlist : m.IsList v items) (i : Int64) :
    m.heap.element v (.int i) =
      (Heap.position i items.length).map fun i => items.getD i .null := by
  obtain ⟨list, rfl, rfl⟩ := hlist
  simp [Heap.element, List.getD_eq_getElem?_getD, Array.getD_eq_getD_getElem?]

theorem listsEntry_of_isList {entries : List MapEntry} {keys values : Value}
    (hkeyed : Keyed (m.heap.entries cell))
    (hwhole : entries.Perm ((m.heap.entries cell).toList.map (·.2)))
    (hkeys : m.IsList keys (entries.map (·.key)))
    (hvalues : m.IsList values (entries.map (·.value))) (i : Int64) :
    m.ListsEntry cell keys values entries i := by
  rw [ListsEntry, element_list hkeys, element_list hvalues, List.length_map, List.length_map]
  rcases Heap.position_cases i entries.length with ⟨hin, hposition⟩ | ⟨hout, problem, hproblem⟩
  · left
    let entry := entries[i.toInt.toNat]
    obtain ⟨⟨id, _⟩, hmem, rfl : _ = entry⟩ :=
      List.mem_map.mp (hwhole.mem_iff.mp (List.getElem_mem hin))
    have hkey : entry.key.mapKey? = some id := hkeyed.of_mem hmem
    have hfind := ExtTreeMap.mem_toList_iff_getElem?_eq_some.mp hmem
    have hitem (view : MapEntry → Value) :
        (entries.map view).getD i.toInt.toNat .null = view entry := by
      rw [List.getD_eq_getElem?_getD, List.getElem?_map, List.getElem?_eq_getElem hin]
      rfl
    rw [hposition]
    refine ⟨entry, List.getElem?_eq_getElem hin, congrArg Except.ok (hitem _),
      congrArg Except.ok (hitem _), ?_, fun ev loc => ?_⟩
    · rw [element_map hkey, hfind]
      rfl
    · rw [call_contains ev hkey, hfind]
      rfl
  · exact Or.inr ⟨hout, problem, by rw [hproblem]; rfl, by rw [hproblem]; rfl⟩

theorem forEach_map (ev : Evaluator) {names : LoopNames} {iterable : Expr} {body : Block}
    {frame : FrameId} {m₀ : Machine}
    (hiterable : ev.expr iterable frame m₀ = .done (.map cell) m) :
    ev.forEach names iterable body frame m₀ =
      Eval.goThrough (fun entry => ev.roundWith names body frame true entry.key entry.value)
        (m.heap.sortedEntries cell) m := by
  rw [Evaluator.forEach, Eval.bind_of_done hiterable]
  refine (Eval.bind_of_done (show Eval.askHeap iterable.loc (·.walk (.map cell)) m =
    .done _ m from rfl)).trans ?_
  dsimp only
  rw [Evaluator.walkPairs_eq, Eval.goThrough_map]

theorem showsMap_sortedEntries (hkeyed : Keyed (m.heap.entries cell)) :
    m.ShowsMap cell (m.heap.sortedEntries cell) := by
  have hwhole := m.heap.sortedEntries_perm cell
  have hfind := getElem?_cases hkeyed hwhole
  constructor
  case whole => exact hwhole
  case once => exact nodup_mapKeys hkeyed hwhole
  case len =>
    intro ev loc
    rw [hwhole.length_eq, List.length_map, ExtTreeMap.length_toList]
    rfl
  case pairs =>
    intro ev key value iterable body frame m₀ hiterable
    rw [forEach_map ev hiterable]
    rfl
  case keysOnly =>
    intro ev key iterable body frame m₀ hiterable
    rw [forEach_map ev hiterable]
    rfl
  case listed =>
    intro ev loc loc'
    let entries := m.heap.sortedEntries cell
    let m₁ : Machine := { m with heap := (m.heap.newArray (entries.map (·.key)).toArray).2 }
    let m₂ : Machine := { m with
      heap := (m₁.heap.newArray (entries.map (·.value)).toArray).2 }
    have hkeys : m₂.IsList (.array m.heap.arrays.size) (entries.map (·.key)) := by
      refine ⟨_, rfl, ?_⟩
      rw [Heap.items_newArray, if_neg (by simp [m₁, Heap.newArray]), Heap.items_newArray,
        if_pos rfl]
    have hvalues : m₂.IsList (.array m₁.heap.arrays.size) (entries.map (·.value)) :=
      ⟨_, rfl, by rw [Heap.items_newArray, if_pos rfl]⟩
    refine ⟨_, m₁, _, m₂, rfl, rfl, hkeys, hvalues, fun i => ?_⟩
    exact listsEntry_of_isList (m := m₂) hkeyed hwhole hkeys hvalues i
  case lookup =>
    intro ev k id loc hk
    rw [call_contains ev hk, element_map hk]
    rcases hfind id with ⟨entry, hentry, hkey, hfind⟩ | ⟨hnone, hfind⟩
    · exact Or.inl ⟨entry, hentry, hkey, by rw [hfind]; rfl, by rw [hfind]; rfl⟩
    · exact Or.inr ⟨hnone, by rw [hfind]; rfl, by rw [hfind]; rfl⟩
  case member =>
    intro ev name args frame loc
    refine ⟨m.heap.entry cell (Value.textKey name), rfl, rfl, fun hcallable => ?_,
      fun hplain => ⟨_, rfl, ?_⟩⟩
    · change (if (m.heap.entry cell (Value.textKey name)).isCallable then
        ev.call _ args loc else _) m = _
      rw [if_pos hcallable]
    · change (if (m.heap.entry cell (Value.textKey name)).isCallable then
        ev.call _ args loc else _) m = _
      rw [if_neg (by rw [hplain]; exact Bool.false_ne_true)]
      rfl

/-- All views of a map show the same entries, and they show them in one order if the texts
of the keys are different.  Any other map with these entries shows them in that order
too, in the same heap or in one where entries are elsewhere in memory.  It is printed in
the same way, unless one of the two maps is inside of an entry, and it is equal to the
first one, unless a value is not equal to itself. -/
theorem map_views_agree (hproper : m.heap.Proper) (hapart : m.heap.KeysApart cell) :
    ∃ entries, m.ShowsMap cell entries ∧
      ∀ (m' : Machine) other, m.heap.Shuffled m'.heap →
        (∀ id : MapKey, (m.heap.entries cell)[id]? = (m'.heap.entries other)[id]?) →
        m'.ShowsMap other entries ∧
        ((∀ entry ∈ entries, ∀ way, ¬ m.heap.Leads entry.value way (.map cell) ∧
            ¬ m.heap.Leads entry.value way (.map other)) →
          m'.heap.display (.map other) = m.heap.display (.map cell)) ∧
        ((∀ entry ∈ entries, entry.value.isNaN = false) →
          m'.heap.equal? (.map cell) (.map other) = some true) := by
  have hkeyed := hproper.keyed cell
  have hentry : ∀ e ∈ (m.heap.entries cell).toList, e.2 ∈ m.heap.sortedEntries cell :=
    fun e he => (m.heap.sortedEntries_perm cell).mem_iff.mpr (List.mem_map.mpr ⟨e, he, rfl⟩)
  refine ⟨_, showsMap_sortedEntries hkeyed, fun m' other hshuffled hlookup => ?_⟩
  have hsame : m.heap.entries cell = m'.heap.entries other := ExtTreeMap.ext_getElem? hlookup
  refine ⟨?_, fun houtside => ?_, fun hnan => ?_⟩
  · rw [Heap.sortedEntries_eq_of_entries_eq hkeyed hapart hsame]
    exact showsMap_sortedEntries (hsame ▸ hkeyed)
  · exact (hshuffled.display_map_eq hsame fun e he => houtside e.2 (hentry e he)).symm
  · have hthere := hshuffled.entries cell
    refine Heap.equal?_map_of_entries_eq (hthere.trans hsame) fun e he => ?_
    exact hnan e.2 (hentry e (hthere ▸ he))

/-! ### Two maps -/

/-- Two maps with the same entries, which were put in and replaced in different orders
and are in different orders in memory. -/
def twoOrders : Machine where
  heap.maps :=
    let put (text : String) (n : Int64) (table : ExtTreeMap MapKey MapEntry) :=
      table.insert (Value.textKey text) ⟨.str text, .int n⟩
    #[put "a" 3 (put "b" 2 (put "a" 1 ∅)), put "a" 3 (put "b" 2 ∅)]
  heap.layout cell _ key := if key = Value.textKey "a" then 2 * cell else 1

theorem map_views_agree_twoOrders :
    ∃ entries, twoOrders.ShowsMap 0 entries ∧ twoOrders.ShowsMap 1 entries ∧
      twoOrders.heap.display (.map 1) = twoOrders.heap.display (.map 0) ∧
      twoOrders.heap.equal? (.map 0) (.map 1) = some true := by
  let one : MapKey × MapEntry := (Value.textKey "a", ⟨.str "a", .int 3⟩)
  let other : MapKey × MapEntry := (Value.textKey "b", ⟨.str "b", .int 2⟩)
  have hlookup (id : MapKey) :
      (twoOrders.heap.entries 0)[id]? = (twoOrders.heap.entries 1)[id]? := by
    simp only [twoOrders, Heap.entries, Array.getD_eq_getD_getElem?, List.getElem?_toArray,
      List.getElem?_cons_zero, List.getElem?_cons_succ, Option.getD_some,
      ExtTreeMap.getElem?_insert]
    split <;> rfl
  have hentries (x : MapKey × MapEntry) (hx : x ∈ (twoOrders.heap.entries 0).toList) :
      x = one ∨ x = other := by
    rw [ExtTreeMap.ext_getElem? hlookup] at hx
    rcases eq_or_mem_of_mem_insert hx with rfl | hold
    · exact Or.inl rfl
    · rcases eq_or_mem_of_mem_insert hold with rfl | hnone
      · exact Or.inr rfl
      · simp at hnone
  have hproper : twoOrders.heap.Proper := Heap.proper_of_maps rfl <|
    List.forall_mem_cons.mpr ⟨((Keyed.empty.insert rfl _).insert rfl _).insert rfl _,
      List.forall_mem_singleton.mpr ((Keyed.empty.insert rfl _).insert rfl _)⟩
  have hapart : twoOrders.heap.KeysApart 0 := by
    have htexts : Value.plainText true (.str "a") ≠ Value.plainText true (.str "b") := by
      decide +kernel
    intro x hx y hy htext
    rcases hentries x hx with rfl | rfl <;> rcases hentries y hy with rfl | rfl
    · rfl
    · exact absurd htext (by rwa [Heap.repr_key rfl, Heap.repr_key rfl])
    · exact absurd htext.symm (by rwa [Heap.repr_key rfl, Heap.repr_key rfl])
    · rfl
  obtain ⟨entries, hshows, hother⟩ := map_views_agree hproper hapart
  obtain ⟨hshows', hdisplay, hequal⟩ := hother twoOrders 1 (.refl _) hlookup
  have hvalues : ∀ entry ∈ entries, ∃ n, entry.value = .int n := by
    intro entry hentry
    obtain ⟨x, hx, rfl⟩ := List.mem_map.mp (hshows.whole.mem_iff.mp hentry)
    rcases hentries x hx with rfl | rfl
    · exact ⟨3, rfl⟩
    · exact ⟨2, rfl⟩
  refine ⟨entries, hshows, hshows', hdisplay fun entry hentry way => ?_,
    hequal fun entry hentry => ?_⟩
  · obtain ⟨n, hn⟩ := hvalues entry hentry
    rw [hn]
    constructor <;> (intro hleads; cases hleads with | through hcontainer => cases hcontainer)
  · obtain ⟨n, hn⟩ := hvalues entry hentry
    rw [hn]
    rfl

/-- The first map contains itself, and the second one contains the first. -/
def insideItself : Heap where
  maps := #[ExtTreeMap.insert ∅ (Value.textKey "me") ⟨.str "me", .map 0⟩,
    ExtTreeMap.insert ∅ (Value.textKey "me") ⟨.str "me", .map 0⟩]

/-- Maps with the same entries may be printed in different ways, if one of them is inside
of itself. -/
theorem display_differs_insideItself :
    insideItself.Proper ∧ insideItself.KeysApart 0 ∧
      (∀ id : MapKey, (insideItself.entries 0)[id]? = (insideItself.entries 1)[id]?) ∧
      insideItself.display (.map 0) ≠ insideItself.display (.map 1) := by
  have hproper : insideItself.Proper := Heap.proper_of_maps rfl <|
    List.forall_mem_cons.mpr ⟨Keyed.empty.insert rfl _,
      List.forall_mem_singleton.mpr (Keyed.empty.insert rfl _)⟩
  have hprinted : ∀ v, insideItself.textWithin? 3 false [] v = some (insideItself.display v) :=
    fun v => Heap.textWithin?_eq (by decide)
  refine ⟨hproper, fun x hx y hy _ => ?_, fun _ => rfl, fun hsame => ?_⟩
  · have honly : ∀ x ∈ (insideItself.entries 0).toList,
        x = (Value.textKey "me", ⟨.str "me", .map 0⟩) := by
      intro x hx
      rcases eq_or_mem_of_mem_insert hx with rfl | hnone
      · rfl
      · simp at hnone
    exact (honly x hx).trans (honly y hy).symm
  · have hdiffer : insideItself.textWithin? 3 false [] (.map 0) ≠
        insideItself.textWithin? 3 false [] (.map 1) := by decide +kernel
    rw [hprinted, hprinted, hsame] at hdiffer
    exact hdiffer rfl

end Machine

end Script
