import Script.Builtin.Reply
import Script.Proofs.Value.References

/-!
# Answers mention only what is there

What is read from a whole heap, what operators compute and what the built-in functions
answer mention only containers of the heap.
-/

namespace Script

open Std (ExtTreeMap)

namespace Heap

variable {α β : Type} [Mentioning β] {h : Heap}

/-- A report has no values in it, so only the second question matters. -/
theorem knows_bind {r : Except Problem α} {f : α → Except Problem β}
    (hf : ∀ x, r = .ok x → h.Knows (f x)) : h.Knows (r >>= f) := by
  cases r with
  | error problem => exact knows_error problem
  | ok x => exact hf x rfl

theorem knows_map {r : Except Problem α} {f : α → β}
    (hf : ∀ x, r = .ok x → h.Knows (f x)) : h.Knows (r.map f) := by
  cases r with
  | error problem => exact knows_error problem
  | ok x => exact hf x rfl

theorem knows_pop [Mentioning α] {xs : Array α} (hxs : h.Knows xs) : h.Knows xs.pop :=
  knows_array.mpr fun x hx => by
    obtain ⟨i, hi, rfl⟩ := Array.getElem_of_mem hx
    rw [Array.getElem_pop]
    exact knows_array.mp hxs _ (Array.getElem_mem _)

/-- A part of an array has no other items. -/
theorem knows_extract [Mentioning α] {xs : Array α} (hxs : h.Knows xs) (start stop : Nat) :
    h.Knows (xs.extract start stop) := by
  refine knows_array.mpr fun x hx => ?_
  obtain ⟨i, hi, rfl⟩ := Array.getElem_of_mem hx
  rw [Array.getElem_extract]
  exact knows_array.mp hxs _ (Array.getElem_mem _)

/-! ### What is read -/

/-- A key that is not there gives null. -/
theorem Whole.entry (hwhole : h.Whole) (cell : Nat) (key : MapKey) :
    h.Knows (h.entry cell key) := by
  unfold Heap.entry
  split
  · next e he => exact (knows_entry.mp (knows_table.mp (hwhole.entries cell) _ _ he).2).2
  · exact knows_of_ref? rfl

/-- Of a text or a range there are only characters and numbers, which are no containers. -/
theorem Whole.element (hwhole : h.Whole) (container index : Value) :
    h.Knows (h.element container index) := by
  unfold Heap.element
  split
  · exact knows_map fun i _ => knows_getD (hwhole.items _) (knows_of_ref? rfl) i
  · refine knows_map fun i _ => ?_
    split <;> exact knows_of_ref? rfl
  · exact knows_map fun i _ => knows_of_ref? rfl
  · split
    · exact hwhole.entry _ _
    · exact knows_error _
  all_goals exact knows_error _

/-- What a member gives is a field, an entry or a method. -/
theorem Whole.member (hwhole : h.Whole) (object : Value) (name : String) :
    h.Knows (h.member object name) := by
  unfold Heap.member
  split
  · exact hwhole.entry _ _
  · dsimp only
    split
    · next value hvalue => exact (knows_table.mp (knows_record.mp (hwhole.instanceAt _)) _ _ hvalue).2
    · split <;> exact knows_error _
  · split
    · exact knows_of_ref? rfl
    · exact knows_error _
  · split
    · exact knows_of_ref? rfl
    · exact knows_of_ref? rfl
    · exact knows_error _
  · exact knows_error _

/-- The items of a slice are items of the array. -/
theorem Whole.slice (hwhole : h.Whole) (container : Value) (start stop : Option Value) :
    h.Knows (h.slice container start stop) := by
  unfold Heap.slice
  split
  · exact knows_map fun bounds _ => knows_extract (hwhole.items _) bounds.1 bounds.2
  · exact knows_map fun bounds _ => knows_of_ref? (v := .str _) rfl
  · exact knows_error _

/-- To sort entries adds none. -/
theorem Whole.sortedEntries (hwhole : h.Whole) (cell : Nat) :
    h.Knows (h.sortedEntries cell) := by
  refine knows_list.mpr fun e he => ?_
  obtain ⟨entry, hentry, rfl⟩ := List.mem_map.mp ((h.sortedEntries_perm cell).mem_iff.mp he)
  rw [ExtTreeMap.mem_toList_iff_getElem?_eq_some] at hentry
  exact (knows_table.mp (hwhole.entries cell) _ _ hentry).2

theorem knows_numbered {items : List Value} (hitems : h.Knows items) :
    h.Knows (numbered items) := by
  refine knows_list.mpr fun pair hpair => ?_
  obtain ⟨⟨item, i⟩, hitem, rfl⟩ := List.mem_map.mp hpair
  exact knows_pair.mpr
    ⟨knows_of_ref? rfl, knows_list.mp hitems item (List.fst_mem_of_mem_zipIdx hitem)⟩

/-- The items are numbered, and numbers are no containers. -/
theorem Whole.walk (hwhole : h.Whole) (v : Value) : h.Knows (h.walk v) := by
  unfold Heap.walk
  split
  · exact knows_numbered (knows_list.mpr fun item hitem =>
      knows_array.mp (hwhole.items _) item (Array.mem_toList_iff.mp hitem))
  · refine knows_numbered (knows_list.mpr fun item hitem => ?_)
    obtain ⟨c, -, rfl⟩ := List.mem_map.mp hitem
    exact knows_of_ref? rfl
  · refine knows_list.mpr fun pair hpair => ?_
    obtain ⟨e, he, rfl⟩ := List.mem_map.mp hpair
    exact knows_pair.mpr (knows_entry.mp (knows_list.mp (hwhole.sortedEntries _) e he))
  · exact knows_of_mentions rfl
  · exact knows_error _

/-! ### What is written to -/

/-- The entry of a map is the one part that has a value in it, its key. -/
theorem knows_elementPart {container index : Value} (hindex : h.Knows index) :
    h.Knows (h.elementPart container index) := by
  unfold Heap.elementPart
  split
  · split
    · exact knows_map fun i _ => knows_of_mentions rfl
    · exact knows_error _
  · split
    · exact hindex
    · exact knows_error _
  · exact knows_error _
  · exact knows_error _

theorem knows_memberPart (object : Value) (name : String) :
    h.Knows (h.memberPart object name) := by
  unfold Heap.memberPart
  split
  · dsimp only
    split
    · exact knows_of_mentions rfl
    · exact knows_error _
  · exact knows_of_ref? (v := .str name) rfl
  · exact knows_error _

end Heap

/-! ### What is computed -/

namespace Operator

open Heap

variable {h : Heap}

/-- A comparison gives a truth value or a report. -/
theorem knows_comparison {α : Type} [LT α] [LE α] [DecidableLT α] [DecidableLE α]
    (op : BinaryOp) (kind : Kind) (a b : α) : h.Knows (comparison op kind a b) := by
  unfold comparison
  split
  · exact knows_of_ref? (v := .bool _) rfl
  · exact knows_error _

theorem knows_settled (a : Int64) (op : String) (b : Int64) (checked : Option Int64)
    (wrapped : Int64) : h.Knows (settled a op b checked wrapped).answer := by
  rw [answer_settled]
  exact knows_of_ref? rfl

theorem knows_integer (op : BinaryOp) (a b : Int64) : h.Knows (integer op a b) := by
  have harithmetic : h.Knows (arithmetic op a b).answer := knows_settled _ _ _ _ _
  unfold integer
  split
  case h_4 | h_5 =>
    split
    · exact knows_error _
    · exact harithmetic
  case h_6 => exact knows_comparison _ _ a b
  all_goals exact harithmetic

theorem knows_float (op : BinaryOp) (a b : Float) : h.Knows (float op a b) := by
  have hfloat : ∀ x, h.Knows (Answer.value (.float x)) := fun x => knows_of_ref? rfl
  unfold float
  split
  case h_4 | h_5 =>
    split
    · exact knows_error _
    · exact hfloat _
  case h_6 => exact knows_comparison _ _ a b
  all_goals exact hfloat _

theorem knows_equality (op : BinaryOp) (left right : Value) :
    h.Knows (equality h op left right) := by
  unfold equality
  split
  · exact knows_error _
  · exact knows_of_ref? (v := .bool _) rfl

/-- Only the sum of two arrays has items, and these are theirs. -/
theorem knows_binary (hwhole : h.Whole) (op : BinaryOp) (left right : Value) :
    h.Knows (Operator.binary h op left right) := by
  unfold Operator.binary
  split
  · exact knows_equality op left right
  split
  · exact knows_integer op _ _
  · exact knows_float op _ _
  · exact knows_float op _ _
  · exact knows_float op _ _
  · split
    · exact knows_of_ref? (v := .str _) rfl
    · exact knows_comparison op _ _ _
  · split
    · refine knows_array.mpr fun v hv => ?_
      rcases Array.mem_append.mp hv with hv | hv
      · exact knows_array.mp (hwhole.items _) v hv
      · exact knows_array.mp (hwhole.items _) v hv
    · exact knows_error _
  · exact knows_comparison op _ _ _
  · exact knows_comparison op _ _ _
  · exact knows_comparison op _ _ _
  · split
    · exact knows_comparison op _ _ _
    · exact knows_error _
  · split <;> exact knows_error _

end Operator

/-! ### What built-in functions answer -/

namespace Builtin

open Heap

variable {h : Heap} {args : List Value}

/-- An answer that is no container. -/
theorem knows_reply {v : Value} (hv : v.ref? = none) : h.Knows (reply v) :=
  knows_of_ref? hv

theorem knows_getD_null {v : Option Value} (hv : h.Knows v) : h.Knows (v.getD .null) := by
  cases v with
  | none => exact knows_of_ref? rfl
  | some v => exact knows_option.mp hv v rfl

theorem knows_back? {xs : Array Value} (hxs : h.Knows xs) : h.Knows xs.back? :=
  knows_option.mpr fun _ hv => knows_array.mp hxs _ (Array.mem_of_back? hv)

/-- The values that are put into an array one by one. -/
theorem knows_toArray {xs : List Value} (hxs : ∀ v ∈ xs, h.Knows v) :
    h.Knows (.ok (.array xs.toArray) : Reply) := by
  simpa using hxs

/-- An array without items gives null. -/
theorem knows_replyFirst (hwhole : h.Whole) (args : List Value) :
    h.Knows (replyFirst h args) := by
  unfold replyFirst
  split
  · exact knows_getD (hwhole.items _) (knows_of_ref? rfl) 0
  · next text =>
    cases text.toList.head? <;> exact knows_reply rfl
  · exact knows_error _
  · exact knows_error _

theorem knows_replyLast (hwhole : h.Whole) (args : List Value) :
    h.Knows (replyLast h args) := by
  unfold replyLast
  split
  · exact knows_getD_null (knows_back? (hwhole.items _))
  · next text =>
    cases text.toList.getLast? <;> exact knows_reply rfl
  · exact knows_error _
  · exact knows_error _

theorem knows_arrayArg (hwhole : h.Whole) (f : Builtin) (position : Nat) (v : Value) :
    h.Knows (arrayArg h f position v) := by
  unfold arrayArg
  split
  · exact hwhole.items _
  · exact knows_error _

theorem knows_replyRest (hwhole : h.Whole) (args : List Value) :
    h.Knows (replyRest h args) := by
  unfold replyRest
  split
  · next v =>
    have hknown := knows_arrayArg hwhole .rest 1 v
    refine knows_bind fun items hitems => ?_
    rw [hitems] at hknown
    split
    · exact knows_reply rfl
    · exact knows_extract (knows_ok.mp hknown) 1 items.size
  · exact knows_error _

theorem knows_replyKeys (hwhole : h.Whole) (args : List Value) :
    h.Knows (replyKeys h args) := by
  unfold replyKeys
  split
  · refine knows_toArray fun v hv => ?_
    obtain ⟨e, he, rfl⟩ := List.mem_map.mp hv
    exact (knows_entry.mp (knows_list.mp (hwhole.sortedEntries _) e he)).1
  · exact knows_error _
  · exact knows_error _

theorem knows_replyValues (hwhole : h.Whole) (args : List Value) :
    h.Knows (replyValues h args) := by
  unfold replyValues
  split
  · refine knows_toArray fun v hv => ?_
    obtain ⟨e, he, rfl⟩ := List.mem_map.mp hv
    exact (knows_entry.mp (knows_list.mp (hwhole.sortedEntries _) e he)).2
  · exact knows_error _
  · exact knows_error _

/-- The pieces are texts. -/
theorem knows_splitReply (text separator : Value) : h.Knows (splitReply h text separator) := by
  refine knows_bind fun text _ => knows_bind fun separator _ => knows_toArray fun v hv => ?_
  obtain ⟨piece, -, rfl⟩ := List.mem_map.mp hv
  exact knows_of_ref? rfl

theorem knows_replyReverse (hwhole : h.Whole) (args : List Value) :
    h.Knows (replyReverse h args) := by
  unfold replyReverse
  split
  · exact knows_reply rfl
  · exact knows_array.mpr fun v hv =>
      knows_array.mp (hwhole.items _) v (Array.mem_reverse.mp hv)
  · exact knows_error _
  · exact knows_error _

/-! #### Answers that are no containers -/

/-- The answer, if there is one, mentions no container. -/
def Plain (r : Reply) : Prop := ∀ h : Heap, h.Knows r

theorem plain_reply {v : Value} (hv : v.ref? = none) : Plain (reply v) :=
  fun _ => knows_reply hv

theorem plain_error (problem : Problem) : Plain (.error problem) :=
  fun _ => knows_error problem

/-- Whatever was asked before, the last answer decides. -/
theorem plain_bind {α : Type} {r : Except Problem α} {f : α → Reply}
    (hf : ∀ x, Plain (f x)) : Plain (r >>= f) :=
  fun h => knows_bind fun x _ => hf x h

theorem plain_positionValue (i : Option Nat) : Plain (reply (positionValue i)) := by
  cases i <;> exact plain_reply rfl

/-- Whatever is asked of a built-in function, its answer mentions only what is there. -/
theorem knows_of_reply? (hwhole : h.Whole) {f : Builtin} {ask : Heap → List Value → Reply}
    (hask : f.reply? = some ask) (args : List Value) : h.Knows (ask h args) := by
  cases f <;> cases hask
  case first => exact knows_replyFirst hwhole args
  case last => exact knows_replyLast hwhole args
  case rest => exact knows_replyRest hwhole args
  case keys => exact knows_replyKeys hwhole args
  case values => exact knows_replyValues hwhole args
  case reverse => exact knows_replyReverse hwhole args
  case split =>
    unfold replySplit
    split
    · exact knows_splitReply _ _
    · exact knows_splitReply _ _
    · exact knows_error _
  -- The others answer texts, numbers and truths, after a look at their arguments.
  all_goals
    refine (show Plain _ from ?_) h
    simp only [replyLen, replyJoin, replyContains, replyIndex, replyRange, replyFormat,
      replyInt, replyString, replyFloat, replyBool, replyChar, replyByte, replyRune,
      replyType, replyAbs, replySqrt, replyPow, replyMin, replyMax, rounded, mapText,
      askText, replyReplicate, replyReplace]
    repeat' split
    all_goals first
      | exact plain_reply rfl
      | exact plain_error _
      | exact plain_bind fun _ => plain_reply rfl
      | exact plain_bind fun _ => plain_bind fun _ => plain_reply rfl
      | exact plain_bind fun _ => plain_bind fun _ => plain_bind fun _ => plain_reply rfl
      | exact plain_positionValue _

end Builtin

end Script
