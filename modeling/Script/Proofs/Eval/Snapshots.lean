import Mathlib.Algebra.Group.Nat.Defs
import Script.Proofs.Eval.Balance
import Script.Proofs.Eval.MapViews
import Script.Proofs.Eval.Turns
import Script.Proofs.Eval.Wholeness
import Script.Proofs.Scope.Acyclic
import Script.Proofs.Scope.Names
import Script.Proofs.Value.Ranges

/-!
# Loops and callbacks work on snapshots

A loop over a collection has one round for each item that the collection has when the
loop is entered, and binds what the collection has then.  The functions that take a
callback apply it to the items that the array has when they are called.  What the rounds
and the callbacks do to the collection comes too late for both.
-/

namespace Script

open Scope (Arena Binding Bindings FrameId find?)
open Std (ExtTreeMap)

/-! ### What a collection has -/

namespace Heap

variable {h : Heap} {c : Value} {keyed : Bool} {pairs : List (Value × Value)}

/-- The pairs that a loop over a value binds in its rounds: the keys of a map with their
values, and the positions of the items of anything else. -/
inductive Snapshot (h : Heap) : Value → Bool → List (Value × Value) → Prop where
  | array (cell : Nat) : Snapshot h (.array cell) false (numbered (h.items cell).toList)
  | str (text : String) :
      Snapshot h (.str text) false (numbered (text.toList.map Value.char))
  | map (cell : Nat) : Snapshot h (.map cell) true
      ((h.sortedEntries cell).map fun e => (e.key, e.value))
  | range (start stop : Int64) : Snapshot h (.range start stop) false
      (numbered ((List.range (Range.size start stop)).map fun i =>
        .int (Range.nth start stop i)))

theorem getElem?_numbered (items : List Value) (i : Nat) :
    (numbered items)[i]? = items[i]?.map fun item => (.int (Int64.ofNat i), item) := by
  simp [numbered, Function.comp_def]

theorem length_numbered (items : List Value) : (numbered items).length = items.length := by
  simp [numbered]

/-- There are as many pairs as `len` counts. -/
theorem Snapshot.replyLen (hpairs : h.Snapshot c keyed pairs) :
    Builtin.replyLen h [c] = Builtin.reply (.int (Int64.ofNat pairs.length)) := by
  cases hpairs with
  | array cell => simp [Builtin.replyLen, length_numbered]
  | str text => simp [Builtin.replyLen, length_numbered, String.length_toList]
  | map cell =>
    rw [List.length_map, (h.sortedEntries_perm cell).length_eq, List.length_map,
      ExtTreeMap.length_toList]
    rfl
  | range start stop => simp [Builtin.replyLen, length_numbered]

theorem position_ofNat {i size : Nat} (hsize : i < size) (hi : i < 2 ^ 63) :
    position (Int64.ofNat i) size = .ok i := by
  have htoInt : (Int64.ofNat i).toInt = i := Int64.toInt_ofNat_of_lt hi
  have hnonneg : ¬ Int64.ofNat i < 0 := by
    rw [Int64.lt_iff_toInt_lt, htoInt]
    exact Int.not_lt.mpr (Int.natCast_nonneg i)
  simp [position, hnonneg, htoInt, Nat.not_le.mpr hsize]

/-- What is bound to a position is what an index of this value gives. -/
theorem Snapshot.element (hpairs : h.Snapshot c false pairs) {i : Nat}
    {pair : Value × Value} (hpair : pairs[i]? = some pair) (hi : i < 2 ^ 63) :
    pair.1 = .int (Int64.ofNat i) ∧ h.element c pair.1 = .ok pair.2 := by
  cases hpairs with
  | array cell =>
    rw [getElem?_numbered, Option.map_eq_some_iff] at hpair
    obtain ⟨item, hitem, rfl⟩ := hpair
    obtain ⟨hsize, rfl⟩ := List.getElem?_eq_some_iff.mp hitem
    have hsize : i < (h.items cell).size := by simpa using hsize
    simp [Heap.element, position_ofNat hsize hi, Except.map, hsize]
  | str text =>
    rw [getElem?_numbered, Option.map_eq_some_iff] at hpair
    obtain ⟨item, hitem, rfl⟩ := hpair
    rw [List.getElem?_map, Option.map_eq_some_iff] at hitem
    obtain ⟨letter, hletter, rfl⟩ := hitem
    obtain ⟨hsize, -⟩ := List.getElem?_eq_some_iff.mp hletter
    simp [Heap.element, position_ofNat hsize hi, Except.map, hletter]
  | range start stop =>
    rw [getElem?_numbered, Option.map_eq_some_iff] at hpair
    obtain ⟨item, hitem, rfl⟩ := hpair
    obtain ⟨hsize, rfl⟩ := List.getElem?_eq_some_iff.mp hitem
    have hsize : i < Range.size start stop := by simpa using hsize
    simp [Heap.element, position_ofNat hsize hi, Except.map]

/-- What programs can find out about the collection agrees with the pairs.  There are as
many of them as `len` counts.  Those of a map are its keys with their values, in the order
of the texts of the keys.  Those of anything else are the positions from zero on, each
with what the collection has there. -/
structure Shows (h : Heap) (c : Value) (keyed : Bool) (pairs : List (Value × Value)) :
    Prop where
  len : Builtin.replyLen h [c] = Builtin.reply (.int (Int64.ofNat pairs.length))
  elements : keyed = false → ∀ (i : Nat) (pair : Value × Value), pairs[i]? = some pair →
    i < 2 ^ 63 → pair.1 = .int (Int64.ofNat i) ∧ h.element c pair.1 = .ok pair.2
  entries : keyed = true → ∃ cell, c = .map cell ∧
    pairs.Perm ((h.entries cell).toList.map fun entry =>
      (entry.2.key, entry.2.value)) ∧
    pairs.Pairwise fun p q => p.1.plainText true ≤ q.1.plainText true

theorem Snapshot.shows (hpairs : h.Snapshot c keyed pairs) : h.Shows c keyed pairs where
  len := hpairs.replyLen
  elements hkeyed _ _ hpair hi := by
    subst hkeyed
    exact hpairs.element hpair hi
  entries hkeyed := by
    cases hpairs with
    | map cell =>
      refine ⟨cell, rfl, ?_, ?_⟩
      · have hperm := (h.sortedEntries_perm cell).map fun e : MapEntry => (e.key, e.value)
        rwa [List.map_map] at hperm
      · exact List.pairwise_map.mpr
          (pairwise_mergeSort_text (fun e : MapEntry => e.key.plainText true) _)
    | _ => cases hkeyed

end Heap

/-! ### Rounds -/

/-- What a loop without a counter walks over, and the names that it binds. -/
inductive LoopHeader.Walks : LoopHeader → LoopNames → Expr → Prop where
  | items (item : Name) (iterable : Expr) :
      Walks (.items item iterable) (.one item.text) iterable
  | pairs (index value : Name) (iterable : Expr) :
      Walks (.pairs index value iterable) (.two index.text value.text) iterable

/-- What a name stands for in the round of a pair, if the loop binds it. -/
def LoopNames.value? (names : LoopNames) (keyed : Bool) (pair : Value × Value)
    (name : String) : Option Value :=
  match names with
  | .one item =>
    if name = item then some (if keyed then pair.1 else pair.2) else none
  | .two index item =>
    if name = item then some pair.2 else if name = index then some pair.1 else none

/-- The machine `start` is `m` with a new frame in the slot `scope`, inside `frame`, in
which the names of a loop are bound to the pair, and nothing else is. -/
structure LoopNames.Opens (names : LoopNames) (keyed : Bool) (pair : Value × Value)
    (frame : FrameId) (m : Machine) (scope : FrameId) (start : Machine) : Prop where
  isNew : m.scopes.frame? scope = none
  isInside : start.scopes.Inside scope frame
  binds : ∀ name, (start.scopes.frame? scope).bind
    (fun f => (find? name f.bindings).map (·.value)) = names.value? keyed pair name
  sees : ∀ name value, names.value? keyed pair name = some value →
    start.scopes.get? scope name = some value
  others : ∀ other, other ≠ scope → start.scopes.frame? other = m.scopes.frame? other
  rest : start = { m with scopes := start.scopes }

section

variable {m : Machine} (names : LoopNames) (frame : FrameId) (keyed : Bool)
  (key value : Value)

/-- The frame of a round, once its names are bound. -/
def LoopNames.frameOf : Scope.Frame Value :=
  match names with
  | .one item =>
    { outer := some frame
      bindings := Scope.put ⟨item, if keyed then key else value, false⟩ {} }
  | .two index item =>
    { outer := some frame
      bindings := Scope.put ⟨item, value, false⟩ (Scope.put ⟨index, key, false⟩ {}) }

theorem LoopNames.outer_frameOf :
    (names.frameOf frame keyed key value).outer = some frame := by
  cases names <;> rfl

theorem LoopNames.find?_frameOf (name : String) :
    (find? name (names.frameOf frame keyed key value).bindings).map (·.value) =
      names.value? keyed (key, value) name := by
  have hput (b : Binding Value) (bindings : Bindings Value) :
      (find? name (Scope.put b bindings)).map (·.value) =
        if name = b.name then some b.value else (find? name bindings).map (·.value) := by
    split
    · next hname => rw [hname, Scope.find?_put_self, Option.map_some]
    · next hname => rw [Scope.find?_put_of_ne hname]
  have hnone : (find? name ({} : Bindings Value)).map (·.value) = none := by simp [find?]
  cases names with
  | one item => rw [frameOf, hput, hnone, value?]
  | two index item => rw [frameOf, hput, hput, hnone, value?]

/-- What is bound in a round is bound in a frame of its own. -/
theorem LoopNames.bind_opens (htidy : m.scopes.Tidy) :
    ∃ start, names.bind (m.scopes.child frame).1 keyed key value (m.openFrame frame) =
        .done () start ∧
      start = { m with scopes := start.scopes } ∧
      ∀ other, start.scopes.frame? other =
        if other = (m.scopes.child frame).1 then
          some (names.frameOf frame keyed key value)
        else m.scopes.frame? other := by
  have hchild := htidy.frame?_child frame
  cases names with
  | one item =>
    refine ⟨_, rfl, rfl, fun other => ?_⟩
    change ((m.scopes.child frame).2.set _ item _).frame? other = _
    rw [Arena.set, Arena.bind, Arena.frame?_modifyFrame, hchild, hchild]
    split <;> simp [frameOf, Scope.put]
  | two index item =>
    refine ⟨_, rfl, rfl, fun other => ?_⟩
    change (((m.scopes.child frame).2.set _ index _).set _ item _).frame? other = _
    rw [Arena.set, Arena.bind, Arena.frame?_modifyFrame, Arena.set, Arena.bind,
      Arena.frame?_modifyFrame, Arena.frame?_modifyFrame, hchild, hchild]
    split <;> simp [frameOf, Scope.put]

/-- A round runs the body in a frame of its own, in which the pair is bound. -/
theorem Evaluator.roundWith_opens (ev : Evaluator) (htidy : m.scopes.Tidy)
    (body : Block) :
    ∃ scope start, names.Opens keyed (key, value) frame m scope start ∧
      ev.roundWith names body frame keyed key value m =
        Eval.ending (Eval.goesOn (ev.block body scope)) (·.closeFrame scope) start := by
  obtain ⟨start, hbind, hrest, hframes⟩ :=
    LoopNames.bind_opens names frame keyed key value htidy
  have hscope := (hframes (m.scopes.child frame).1).trans (if_pos rfl)
  refine ⟨(m.scopes.child frame).1, start, ⟨?_, ?_, ?_, ?_, ?_, hrest⟩, ?_⟩
  · exact htidy.frame?_child_slot frame
  · exact ⟨_, hscope, LoopNames.outer_frameOf names frame keyed key value⟩
  · intro name
    rw [hscope, Option.bind_some, LoopNames.find?_frameOf]
  · intro name seen hseen
    rw [← LoopNames.find?_frameOf names frame, Option.map_eq_some_iff] at hseen
    obtain ⟨b, hb, rfl⟩ := hseen
    rw [Arena.get?, Arena.resolve?_of_find? hscope hb, Option.map_some]
  · exact fun other hother => (hframes other).trans (if_neg hother)
  · rw [roundWith, Eval.inChild_eq]
    unfold Eval.ending
    rw [Eval.bind_of_done hbind]

end

/-! ### One round after another -/

/-- How a loop over the pairs ends.  Each round runs the body in a new frame, in which its
pair is bound, and closes that frame.  The first round in which the body breaks, returns
or fails is the last. -/
inductive LoopNames.Rounds (names : LoopNames) (keyed : Bool) (frame : FrameId)
    (body : FrameId → Eval Value) : List (Value × Value) → Machine → Outcome Value → Prop where
  | nil (m : Machine) : Rounds names keyed frame body [] m (.done .null m)
  | goesOn {pair : Value × Value} {pairs : List (Value × Value)} {m start m' : Machine}
      {scope : FrameId} {o : Outcome Value}
      (hopens : names.Opens keyed pair frame m scope start)
      (hbody : (∃ value, body scope start = .done value m') ∨
        body scope start = .left .continued m')
      (hrest : Rounds names keyed frame body pairs (m'.closeFrame scope) o) :
      Rounds names keyed frame body (pair :: pairs) m o
  | breaks {pair : Value × Value} {pairs : List (Value × Value)} {m start m' : Machine}
      {scope : FrameId} (hopens : names.Opens keyed pair frame m scope start)
      (hbody : body scope start = .left .broke m') :
      Rounds names keyed frame body (pair :: pairs) m (.done .null (m'.closeFrame scope))
  | returns {pair : Value × Value} {pairs : List (Value × Value)} {m start m' : Machine}
      {scope : FrameId} {value : Value}
      (hopens : names.Opens keyed pair frame m scope start)
      (hbody : body scope start = .left (.returned value) m') :
      Rounds names keyed frame body (pair :: pairs) m
        (.left (.returned value) (m'.closeFrame scope))
  | fails {pair : Value × Value} {pairs : List (Value × Value)} {m start m' : Machine}
      {scope : FrameId} {problem : Problem} {loc : Location}
      (hopens : names.Opens keyed pair frame m scope start)
      (hbody : body scope start = .left (.failed problem loc) m') :
      Rounds names keyed frame body (pair :: pairs) m
        (.left (.failed problem loc) (m'.closeFrame scope))
  | exhausted {pair : Value × Value} {pairs : List (Value × Value)} {m start : Machine}
      {scope : FrameId} (hopens : names.Opens keyed pair frame m scope start)
      (hbody : body scope start = .exhausted) :
      Rounds names keyed frame body (pair :: pairs) m .exhausted

/-- What the loop does after a round depends on how the body has ended. -/
theorem Evaluator.goThrough_cons (ev : Evaluator) {names : LoopNames} {keyed : Bool}
    {frame scope : FrameId} {body : Block} {pair : Value × Value}
    {pairs : List (Value × Value)} {m start : Machine}
    (hround : ev.roundWith names body frame keyed pair.1 pair.2 m =
      Eval.ending (Eval.goesOn (ev.block body scope)) (·.closeFrame scope) start) :
    Eval.goThrough (fun pair => ev.roundWith names body frame keyed pair.1 pair.2)
        (pair :: pairs) m =
      match ev.block body scope start with
      | .done _ m' | .left .continued m' =>
        Eval.goThrough (fun pair => ev.roundWith names body frame keyed pair.1 pair.2)
          pairs (m'.closeFrame scope)
      | .left .broke m' => .done .null (m'.closeFrame scope)
      | .left (.returned value) m' => .left (.returned value) (m'.closeFrame scope)
      | .left (.failed problem loc) m' => .left (.failed problem loc) (m'.closeFrame scope)
      | .exhausted => .exhausted := by
  rw [Eval.goThrough]
  change Eval.bind _ _ m = _
  unfold Eval.bind
  rw [hround, Eval.ending, Eval.goesOn]
  cases ev.block body scope start with
  | done value m' => rfl
  | left exit m' => cases exit <;> rfl
  | exhausted => rfl

/-- Going through the pairs of a snapshot is a matter of the pairs and of the body.  By
induction on the pairs; a round leaves the frames tidy, so that the next one opens a
frame that is new. -/
theorem Evaluator.rounds_goThrough (settings : Settings) (n : Nat) (names : LoopNames)
    (keyed : Bool) (frame : FrameId) (body : Block) (pairs : List (Value × Value))
    {m : Machine} (hm : m.Reached) :
    names.Rounds keyed frame ((bounded settings n).block body) pairs m
      (Eval.goThrough (fun pair =>
        (bounded settings n).roundWith names body frame keyed pair.1 pair.2) pairs m) := by
  induction pairs generalizing m with
  | nil => exact .nil m
  | cons pair pairs ih =>
    obtain ⟨scope, start, hopens, hround⟩ := (bounded settings n).roundWith_opens
      names frame keyed pair.1 pair.2 hm.tidy body
    have hreached : ∀ m', Eval.ending (Eval.goesOn ((bounded settings n).block body scope))
        (·.closeFrame scope) start = .done true m' → m'.Reached := by
      intro m' hgoesOn
      have hend : ((bounded settings n).roundWith names body frame keyed pair.1 pair.2
          m).machine? = some m' := by rw [hround, hgoesOn]; rfl
      have habides := (bounded_abides settings n #[]).roundWith names body frame keyed
        (l := .values) pair.1 pair.2
      exact ((habides m trivial).2 m' hend).nested.reached hm
    rw [(bounded settings n).goThrough_cons hround]
    cases hbody : (bounded settings n).block body scope start with
    | done value m' =>
      refine .goesOn hopens (Or.inl ⟨value, hbody⟩) (ih (hreached _ ?_))
      rw [Eval.ending, Eval.goesOn, hbody]
    | left exit m' =>
      cases exit with
      | continued =>
        refine .goesOn hopens (Or.inr hbody) (ih (hreached _ ?_))
        rw [Eval.ending, Eval.goesOn, hbody]
      | broke => exact .breaks hopens hbody
      | returned value => exact .returns hopens hbody
      | failed problem loc => exact .fails hopens hbody
    | exhausted => exact .exhausted hopens hbody

namespace Evaluator

variable (ev : Evaluator) {m m₁ : Machine} {frame : FrameId} {names : LoopNames}

/-- The way over a range passes the number at each position. -/
theorem walkNumbers_eq (names : LoopNames) (body : Block) (frame : FrameId)
    {start stop : Int64} {n i : Nat} (hsize : i + n = Range.size start stop) :
    ev.walkNumbers names body frame stop i (Range.nth start stop i) =
      Eval.goThrough (fun pair => ev.roundWith names body frame false pair.1 pair.2)
        ((List.range' i n).map fun j =>
          (.int (Int64.ofNat j), .int (Range.nth start stop j))) := by
  induction n generalizing i with
  | zero =>
    obtain rfl : i = Range.size start stop := hsize
    rw [Range.nth_size, walkNumbers_stop]
    rfl
  | succ n ih =>
    have hi : i < Range.size start stop := by omega
    rw [walkNumbers_of_ne ev (Range.nth_ne_stop hi), Range.next_nth hi,
      List.range'_succ, List.map_cons, Eval.goThrough]
    simp only [ih (i := i + 1) (by omega)]

/-- A loop over a collection goes through its snapshot. -/
theorem forEach_of_snapshot {iterable : Expr} {body : Block} {c : Value} {keyed : Bool}
    {pairs : List (Value × Value)} (hc : ev.expr iterable frame m = .done c m₁)
    (hpairs : m₁.heap.Snapshot c keyed pairs) :
    ev.forEach names iterable body frame m =
      Eval.goThrough (fun pair => ev.roundWith names body frame keyed pair.1 pair.2)
        pairs m₁ := by
  rw [forEach, Eval.bind_of_done hc]
  cases hpairs with
  | array cell =>
    rw [← walkPairs_eq]
    rfl
  | str text =>
    rw [← walkPairs_eq]
    rfl
  | map cell =>
    rw [← walkPairs_eq]
    rfl
  | range start stop =>
    have hnumbers : Heap.numbered ((List.range (Range.size start stop)).map fun i =>
          .int (Range.nth start stop i)) =
        (List.range' 0 (Range.size start stop)).map fun i =>
          (.int (Int64.ofNat i), .int (Range.nth start stop i)) := by
      refine List.ext_getElem? fun i => ?_
      rw [Heap.getElem?_numbered, List.getElem?_map, List.getElem?_map,
        ← List.range_eq_range', Option.map_map]
      refine Option.map_congr fun j hj => ?_
      obtain ⟨hlt, rfl⟩ := List.getElem?_eq_some_iff.mp hj
      simp
    rw [hnumbers, ← walkNumbers_eq ev names body frame (Nat.zero_add _), Range.nth_zero]
    rfl

end Evaluator

/-! ### Callbacks -/

namespace Evaluator

variable (ev : Evaluator) {m : Machine} (f : Value) (loc : Location)

/-- Applies a function to an item, and says whether its value counts as true. -/
def applyTest (item : Value) : Eval Bool := do
  let v ← ev.apply f [item] loc
  Eval.read fun m => m.heap.truthy v

/-- The items that were found true. -/
def selected (items : List Value) (tests : List Bool) : List Value :=
  ((items.zip tests).filter (·.2)).map (·.1)

theorem mapEach_eq (items : List Value) (results : Array Value) :
    ev.mapEach f loc items results =
      (Eval.collect (fun item => ev.apply f [item] loc) items >>= fun values =>
        Pure.pure (results ++ values.toArray)) := by
  induction items generalizing results with
  | nil => rw [mapEach, Eval.collect, Eval.pure_bind, Array.append_empty]
  | cons item items ih =>
    rw [mapEach, Eval.collect, Eval.bind_assoc]
    congr 1
    funext v
    rw [ih, Eval.bind_assoc]
    congr 1
    funext values
    rw [Eval.pure_bind, ← List.singleton_append (x := v), ← List.append_toArray,
      ← Array.append_assoc]
    rfl

theorem filterEach_eq (items : List Value) (kept : Array Value) :
    ev.filterEach f loc items kept =
      (Eval.collect (ev.applyTest f loc) items >>= fun tests =>
        Pure.pure (kept ++ (selected items tests).toArray)) := by
  induction items generalizing kept with
  | nil => rw [filterEach, Eval.collect, Eval.pure_bind, selected]; simp
  | cons item items ih =>
    rw [filterEach, Eval.collect, Eval.bind_assoc, applyTest, Eval.bind_assoc]
    congr 1
    funext v
    congr 1
    funext test
    rw [Eval.bind_assoc, ih, ih]
    cases test <;> simp [Eval.pure_bind, selected]

/-- The items are taken from the array before anything is called. -/
theorem itemsAndFunction_eq (b : Builtin) (hf : f.isCallable = true) (cell : Nat) :
    itemsAndFunction b (.array cell) f loc m = .done ((m.heap.items cell).toList, f) m := by
  simp [itemsAndFunction, Eval.askHeap, Builtin.arrayArg, Builtin.functionArg, hf, bind,
    Except.bind, Pure.pure, Except.pure]

theorem call_map (hf : f.isCallable = true) (cell : Nat) :
    (∃ results m', Eval.InTurn (fun item => ev.apply f [item] loc)
        (m.heap.items cell).toList m results m' ∧
      ev.call (.builtin .map) [.array cell, f] loc m =
        Eval.onHeap (·.newArray results.toArray) m') ∨
    Eval.StopsIn (fun item => ev.apply f [item] loc) (m.heap.items cell).toList m
      (ev.call (.builtin .map) [.array cell, f] loc m) := by
  have hcall : ev.call (.builtin .map) [.array cell, f] loc m =
      (Eval.collect (fun item => ev.apply f [item] loc) (m.heap.items cell).toList >>=
        fun results => Eval.onHeap (·.newArray results.toArray)) m := by
    change (itemsAndFunction .map (.array cell) f loc >>= fun asked =>
      ev.mapEach asked.2 loc asked.1 #[] >>= fun results =>
        Eval.onHeap (·.newArray results)) m = _
    rw [Eval.bind_of_done (itemsAndFunction_eq f loc .map hf cell), mapEach_eq,
      Eval.bind_assoc]
    simp only [Eval.pure_bind, Array.empty_append]
  rw [hcall]
  exact Eval.collect_bind_cases _ _ _ m

theorem call_filter (hf : f.isCallable = true) (cell : Nat) :
    (∃ tests m', Eval.InTurn (ev.applyTest f loc) (m.heap.items cell).toList m tests m' ∧
      ev.call (.builtin .filter) [.array cell, f] loc m =
        Eval.onHeap (·.newArray (selected (m.heap.items cell).toList tests).toArray) m') ∨
    Eval.StopsIn (ev.applyTest f loc) (m.heap.items cell).toList m
      (ev.call (.builtin .filter) [.array cell, f] loc m) := by
  have hcall : ev.call (.builtin .filter) [.array cell, f] loc m =
      (Eval.collect (ev.applyTest f loc) (m.heap.items cell).toList >>= fun tests =>
        Eval.onHeap (·.newArray (selected (m.heap.items cell).toList tests).toArray)) m := by
    change (itemsAndFunction .filter (.array cell) f loc >>= fun asked =>
      ev.filterEach asked.2 loc asked.1 #[] >>= fun kept =>
        Eval.onHeap (·.newArray kept)) m = _
    rw [Eval.bind_of_done (itemsAndFunction_eq f loc .filter hf cell), filterEach_eq,
      Eval.bind_assoc]
    simp only [Eval.pure_bind, Array.empty_append]
  rw [hcall]
  exact Eval.collect_bind_cases _ _ _ m

theorem reduceEach_foldsTo (items : List Value) (start : Value) (m : Machine) :
    Eval.FoldsTo (fun result item => ev.apply f [result, item] loc) items start m
      (ev.reduceEach f loc items start m) := by
  induction items generalizing start m with
  | nil => exact Or.inl ⟨start, m, .nil start m, rfl⟩
  | cons item items ih =>
    rw [reduceEach]
    rcases Eval.done_or_endsAs (ev.apply f [start, item] loc) m with
      ⟨next, m', hfirst⟩ | hends
    · rw [Eval.bind_of_done hfirst]
      rcases ih next m' with ⟨last, m'', hall, hdone⟩ |
        ⟨before, stop, after, result, m'', hsplit, hbefore, hstop⟩
      · exact Or.inl ⟨last, m'', .cons hfirst hall, hdone⟩
      · exact Or.inr ⟨item :: before, stop, after, result, m'', by rw [hsplit]; rfl,
          .cons hfirst hbefore, hstop⟩
    · exact Or.inr ⟨[], item, items, start, m, rfl, .nil start m, hends _ _⟩

theorem call_reduce (hf : f.isCallable = true) (cell : Nat) (start : Value) :
    Eval.FoldsTo (fun result item => ev.apply f [result, item] loc)
      (m.heap.items cell).toList start m
      (ev.call (.builtin .reduce) [.array cell, f, start] loc m) := by
  change Eval.FoldsTo _ _ _ _ ((itemsAndFunction .reduce (.array cell) f loc >>= fun asked =>
    ev.reduceEach asked.2 loc asked.1 start) m)
  rw [Eval.bind_of_done (itemsAndFunction_eq f loc .reduce hf cell)]
  exact ev.reduceEach_foldsTo f loc _ start m

end Evaluator

/-! ### New arrays -/

/-- The machine has got an array with the items, and nothing in the machine before
mentions that array. -/
structure Machine.GetsArray (m : Machine) (items : List Value) (v : Value) (m' : Machine) :
    Prop where
  array : ∃ cell, v = .array cell ∧ m'.heap.items cell = items.toArray ∧
    Ref.array cell ∉ mentions m
  rest : m' = { m with heap := (m.heap.newArray items.toArray).2 }

theorem Machine.Whole.getsArray {m : Machine} (hwhole : m.Whole) (items : List Value) :
    ∃ v m', Eval.onHeap (·.newArray items.toArray) m = .done v m' ∧
      m.GetsArray items v m' := by
  refine ⟨_, _, rfl, ⟨m.heap.arrays.size, rfl, ?_, fun hmentioned => ?_⟩, rfl⟩
  · exact (Heap.items_newArray _ _ _).trans (if_pos rfl)
  · exact Nat.lt_irrefl _ (Heap.mem_refs_array.mp (hwhole _ hmentioned))

theorem Evaluator.Sound.applyTest {ev : Evaluator} (hev : ev.Sound) {h : Heap} {f : Value}
    (hf : h.Knows f) {item : Value} (hitem : h.Knows item) (loc : Location) :
    Eval.Sound h (ev.applyTest f loc item) :=
  (hev.apply hf (Heap.knows_cons.mpr ⟨hitem, Heap.knows_nil⟩) loc).bind fun _ _ _ _ =>
    Eval.sound_read fun _ _ => Heap.knows_valueless _

/-! ### The whole -/

/-- The outcome with its machine changed. -/
def Outcome.onMachine {α : Type} (change : Machine → Machine) : Outcome α → Outcome α
  | .done value m => .done value (change m)
  | .left exit m => .left exit (change m)
  | .exhausted => .exhausted

theorem Eval.ending_eq {α : Type} (c : Eval α) (last : Machine → Machine) (m : Machine) :
    ending c last m = (c m).onMachine last := by
  unfold ending
  cases c m <;> rfl

theorem Machine.Reached.enterLoop {m : Machine} (hm : m.Reached) (loc : Location) :
    (m.enterLoop loc).Reached :=
  .change hm.openLoop (.note m.openLoop _)

/-- A loop over a collection has one round for each pair of the snapshot that is taken
when the loop is entered. -/
theorem Evaluator.forLoop_rounds {settings : Settings} {n : Nat} {m m₁ : Machine}
    (hm : m.Reached) {header : LoopHeader} {names : LoopNames} {iterable : Expr}
    (hheader : header.Walks names iterable) {frame : FrameId} {loc : Location} {c : Value}
    (hc : evaluate settings n (.expr iterable frame) (m.enterLoop loc) = .done c m₁)
    {keyed : Bool} {pairs : List (Value × Value)} (hpairs : m₁.heap.Snapshot c keyed pairs)
    (body : Block) :
    ∃ o, names.Rounds keyed frame ((bounded settings n).block body) pairs m₁ o ∧
      evaluate settings (n + 1) (.expr (.forLoop header body loc) frame) m =
        o.onMachine Machine.closeLoop := by
  have hloop : evaluate settings (n + 1) (.expr (.forLoop header body loc) frame) m =
      Eval.inLoop loc ((bounded settings n).forEach names iterable body frame) m := by
    cases hheader <;> rfl
  have hround : (m₁).Reached :=
    (evaluate_nests settings n _ _ m₁ (congrArg Outcome.machine? hc)).reached
      (hm.enterLoop loc)
  refine ⟨_, rounds_goThrough settings n names keyed frame body pairs hround, ?_⟩
  rw [hloop]
  unfold Eval.inLoop Eval.bind
  rw [Eval.enterLoop_eq, ← forEach_of_snapshot (bounded settings n) hc hpairs]
  exact Eval.ending_eq _ _ _

/-- Loops and callbacks work on what a collection has when they begin, whatever happens
to it afterwards.  A loop has one round for each element that the collection has when the
loop is entered, in their order, up to the first round that does not go on.  `map`,
`filter` and `reduce` apply the function to the items that the array has when they are
called, in their order, up to the first application that gives no value. -/
theorem loops_and_callbacks_work_on_snapshots (settings : Settings)
    (hlibrary : settings.library.WithoutContainers) (n : Nat) {m : Machine}
    (hreached : m.Reached) (hwhole : m.Whole) :
    (∀ (header : LoopHeader) (names : LoopNames) (iterable : Expr) (body : Block)
        (loc : Location) (frame : FrameId) (c : Value) (keyed : Bool)
        (pairs : List (Value × Value)) (m₁ : Machine),
      header.Walks names iterable →
      evaluate settings n (.expr iterable frame) (m.enterLoop loc) = .done c m₁ →
      m₁.heap.Snapshot c keyed pairs →
      m₁.heap.Shows c keyed pairs ∧
      ∃ o, names.Rounds keyed frame ((Evaluator.bounded settings n).block body) pairs m₁ o ∧
        evaluate settings (n + 1) (.expr (.forLoop header body loc) frame) m =
          o.onMachine Machine.closeLoop) ∧
    (∀ (f : Value) (cell : Nat) (loc : Location), f.isCallable = true → m.heap.Knows f →
      let ev := Evaluator.bounded settings n
      let items := (m.heap.items cell).toList
      ((∃ results last v m', Eval.InTurn (fun item => ev.apply f [item] loc) items m results
            last ∧
          results.length = items.length ∧ last.GetsArray results v m' ∧
          ev.call (.builtin .map) [.array cell, f] loc m = .done v m') ∨
        Eval.StopsIn (fun item => ev.apply f [item] loc) items m
          (ev.call (.builtin .map) [.array cell, f] loc m)) ∧
      ((∃ tests last v m', Eval.InTurn (ev.applyTest f loc) items m tests last ∧
          tests.length = items.length ∧
          last.GetsArray (Evaluator.selected items tests) v m' ∧
          ev.call (.builtin .filter) [.array cell, f] loc m = .done v m') ∨
        Eval.StopsIn (ev.applyTest f loc) items m
          (ev.call (.builtin .filter) [.array cell, f] loc m)) ∧
      ∀ start, Eval.FoldsTo (fun result item => ev.apply f [result, item] loc) items start m
        (ev.call (.builtin .reduce) [.array cell, f, start] loc m)) := by
  refine ⟨fun header names iterable body loc frame c keyed pairs m₁ hheader hc hpairs =>
    ⟨hpairs.shows, Evaluator.forLoop_rounds hreached hheader hc hpairs body⟩, ?_⟩
  intro f cell loc hcallable hf ev items
  have hev : ev.Sound := Evaluator.bounded_sound hlibrary n
  have hitems : ∀ item ∈ items, m.heap.Knows item :=
    Heap.knows_list.mp (Heap.knows_toList.mpr ((Machine.whole_iff.mp hwhole).2.items cell))
  refine ⟨?_, ?_, ev.call_reduce f loc hcallable cell⟩
  · refine (ev.call_map f loc hcallable cell).imp_left ?_
    rintro ⟨results, last, hturns, hcall⟩
    have hlast : last.Keeps m.heap := hturns.keepsHeap
      (fun item hitem => hev.apply hf (Heap.knows_cons.mpr ⟨hitems item hitem, Heap.knows_nil⟩)
        loc) hwhole.keeps
    obtain ⟨v, m', hmade, hgets⟩ := hlast.whole.getsArray results
    exact ⟨results, last, v, m', hturns, hturns.length_eq, hgets, hcall.trans hmade⟩
  · refine (ev.call_filter f loc hcallable cell).imp_left ?_
    rintro ⟨tests, last, hturns, hcall⟩
    have hlast : last.Keeps m.heap := hturns.keepsHeap
      (fun item hitem => hev.applyTest hf (hitems item hitem) loc) hwhole.keeps
    obtain ⟨v, m', hmade, hgets⟩ := hlast.whole.getsArray (Evaluator.selected items tests)
    exact ⟨tests, last, v, m', hturns, hturns.length_eq, hgets, hcall.trans hmade⟩

/-- `push(a, x)` -/
def growingCall : Expr :=
  let name (text : String) : Expr := .name ⟨text, default⟩
  .call (name "push") [name "a", name "x"] default

/-- `x => push(a, x)` -/
def growingCallback : Value :=
  .arrow ⟨0, [⟨"x", default⟩], growingCall, Arena.root⟩

/-- `{ push(a, x) }` -/
def growingBody : Block := ⟨[.expr growingCall default], default⟩

/-- `for (x in a) { push(a, x) }` -/
def growingLoop : Expr :=
  .forLoop (.items ⟨"x", default⟩ (.name ⟨"a", default⟩)) growingBody default

/-- A machine with an array of two items, which the root frame has a name for. -/
def growingMachine : Machine :=
  { Machine.start "" with
    scopes := Arena.new.set Arena.root "a" (.array 0)
    heap := { arrays := #[#[.int 1, .int 2]] } }

/-- How many items the first array has in the end. -/
def Outcome.firstSize? (o : Outcome Value) : Option Nat :=
  o.machine?.map fun m => (m.heap.items 0).size

/-- A loop whose body adds to the array that is walked over has two rounds, and `map` with
a callback that adds to the array applies it twice. -/
theorem loops_and_callbacks_work_on_snapshots_growing :
    let ev := Evaluator.bounded ⟨1, .empty⟩ 4
    (∃ o, (LoopNames.one "x").Rounds false Arena.root (ev.block growingBody)
        [(.int 0, .int 1), (.int 1, .int 2)] (growingMachine.enterLoop default) o ∧
      (o.onMachine Machine.closeLoop).isDone = true ∧
      (o.onMachine Machine.closeLoop).firstSize? = some 4) ∧
    ∃ results last v m', Eval.InTurn (fun item => ev.apply growingCallback [item] default)
        [.int 1, .int 2] growingMachine results last ∧
      results.length = 2 ∧ last.GetsArray results v m' ∧
      (Outcome.done v m').firstSize? = some 4 := by
  intro ev
  have hreached : growingMachine.Reached := .change (.change (.start "" fun _ _ _ => 0)
    (.bind _ Arena.root ⟨"a", .array 0, false⟩)) (.heap _ { arrays := #[#[.int 1, .int 2]] })
  have hwhole : growingMachine.Whole := by
    unfold Machine.Whole Heap.Knows
    decide +kernel
  obtain ⟨hloops, hcallbacks⟩ := loops_and_callbacks_work_on_snapshots
    ⟨1, .empty⟩ Library.empty_withoutContainers 4 hreached hwhole
  constructor
  · obtain ⟨-, o, hrounds, heq⟩ := hloops _ (.one "x") (.name ⟨"a", default⟩) growingBody
      default Arena.root (.array 0) false [(.int 0, .int 1), (.int 1, .int 2)]
      (growingMachine.enterLoop default) (.items ⟨"x", default⟩ _) rfl (.array 0)
    have hdone : (evaluate ⟨1, .empty⟩ 5 (.expr growingLoop Arena.root)
        growingMachine).isDone = true := by decide +kernel
    have hsize : (evaluate ⟨1, .empty⟩ 5 (.expr growingLoop Arena.root)
        growingMachine).firstSize? = some 4 := by decide +kernel
    exact ⟨o, hrounds, heq ▸ hdone, heq ▸ hsize⟩
  · have hdone : (ev.call (.builtin .map) [.array 0, growingCallback] default
        growingMachine).isDone = true := by decide +kernel
    have hsize : (ev.call (.builtin .map) [.array 0, growingCallback] default
        growingMachine).firstSize? = some 4 := by decide +kernel
    rcases (hcallbacks growingCallback 0 default rfl (Heap.knows_of_ref? rfl)).1 with
      ⟨results, last, v, m', hturns, hlength, hgets, hcall⟩ | ⟨_, _, _, _, _, -, -, hends⟩
    · exact ⟨results, last, v, m', hturns, hlength, hgets, hcall ▸ hsize⟩
    · exact absurd hdone (Bool.eq_false_iff.mp hends.not_isDone)

end Script
