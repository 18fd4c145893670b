import Script.Scope.Arena
import Mathlib.Data.List.Nodup

/-!
# Slots of an arena

What every operation of an arena does to its slots, read through `frame?`, and
the order that is kept among them: the free list names every empty slot once,
the root is there and running, only a pinned frame has exited, and the constants
of a frame are bound in it.  This order holds whatever slots the operations are given.
-/

namespace Script.Scope

open Std (ExtTreeMap)

variable {α : Type}

/-! ### The constants of a frame -/

namespace Bindings

variable {bindings : Bindings α}

/-- Every constant is bound. -/
def Bound (bindings : Bindings α) : Prop :=
  ∀ name, bindings.constants.contains name = true →
    ∃ value, bindings.values[name]? = some value

theorem bound_empty : ({} : Bindings α).Bound := by
  intro name hconstant
  simp at hconstant

theorem Bound.put (hbound : bindings.Bound) (b : Binding α) :
    (Scope.put b bindings).Bound := by
  intro name hconstant
  by_cases hname : name = b.name
  · subst hname
    exact ⟨b.value, ExtTreeMap.getElem?_insert_self⟩
  · rw [constants_put_of_ne hname] at hconstant
    rw [values_put_of_ne hname]
    exact hbound name hconstant

/-- A new value takes no name away. -/
theorem Bound.rebind (hbound : bindings.Bound) (name : String) (value : α) :
    (Scope.rebind name value bindings).Bound := by
  intro other hconstant
  obtain ⟨old, hold⟩ := hbound other hconstant
  by_cases hother : other = name
  · subst hother
    exact ⟨value, by simp [Scope.rebind, hold]⟩
  · refine ⟨old, ?_⟩
    simp [Scope.rebind, ExtTreeMap.getElem?_modify, Ne.symm hother, hold]

end Bindings

namespace Arena

variable {a : Arena α}

/-! ### What the operations do to the slots -/

theorem lt_size_of_frame? {id : FrameId} {frame : Frame α}
    (hframe : a.frame? id = some frame) : id < a.frames.size := by
  by_contra hsize
  simp [frame?, Array.getD, hsize] at hframe

theorem frame?_of_size_le {id : FrameId} (hsize : a.frames.size ≤ id) :
    a.frame? id = none := by
  simp [frame?, Array.getD, Nat.not_lt.mpr hsize]

theorem frame?_congr {b : Arena α} (hframes : a.frames = b.frames)
    (id : FrameId) : a.frame? id = b.frame? id := by
  rw [frame?, frame?, hframes]

@[simp]
theorem size_modifyFrame (id : FrameId) (f : Frame α → Frame α) :
    (a.modifyFrame id f).frames.size = a.frames.size := by
  simp [modifyFrame]

theorem frame?_modifyFrame (id : FrameId) (f : Frame α → Frame α)
    (other : FrameId) :
    (a.modifyFrame id f).frame? other =
      if other = id then (a.frame? id).map f else a.frame? other := by
  by_cases hsize : other < a.frames.size
  · by_cases hid : other = id
    · subst other
      simp [frame?, modifyFrame, Array.getD, hsize, Array.getElem_modify]
    · simp [frame?, modifyFrame, Array.getD, hsize, Array.getElem_modify, hid,
        Ne.symm hid]
  · have hnone : a.frame? other = none :=
      frame?_of_size_le (Nat.le_of_not_lt hsize)
    have hmodified : (a.modifyFrame id f).frame? other = none :=
      frame?_of_size_le (by simpa using Nat.le_of_not_lt hsize)
    rw [hmodified, hnone]
    split
    · subst other
      simp [hnone]
    · rfl

@[simp]
theorem frame?_modifyFrame_self (id : FrameId) (f : Frame α → Frame α) :
    (a.modifyFrame id f).frame? id = (a.frame? id).map f := by
  simp [frame?_modifyFrame]

theorem frame?_freeSlot (slot id : FrameId) :
    (a.freeSlot slot).frame? id = if id = slot then none else a.frame? id := by
  by_cases hsize : id < a.frames.size
  · by_cases hid : id = slot
    · subst id
      simp [frame?, freeSlot, Array.getD, hsize]
    · simp [frame?, freeSlot, Array.getD, hsize, hid, Ne.symm hid]
  · have hnone : a.frame? id = none :=
      frame?_of_size_le (Nat.le_of_not_lt hsize)
    have hfreed : (a.freeSlot slot).frame? id = none :=
      frame?_of_size_le (by simpa [freeSlot] using Nat.le_of_not_lt hsize)
    simp [hnone, hfreed]

@[simp]
theorem size_freeSlot (slot : FrameId) :
    (a.freeSlot slot).frames.size = a.frames.size := by
  simp [freeSlot]

theorem frame?_foldl_freeSlot (slots : List FrameId) (a : Arena α)
    (id : FrameId) :
    (slots.foldl freeSlot a).frame? id =
      if id ∈ slots then none else a.frame? id := by
  induction slots generalizing a with
  | nil => simp
  | cons slot slots ih =>
    rw [List.foldl_cons, ih, frame?_freeSlot]
    by_cases hslot : id = slot <;> simp [hslot]

theorem size_foldl_freeSlot (slots : List FrameId) (a : Arena α) :
    (slots.foldl freeSlot a).frames.size = a.frames.size := by
  induction slots generalizing a with
  | nil => rfl
  | cons slot slots ih => rw [List.foldl_cons, ih, size_freeSlot]

theorem free_foldl_freeSlot (slots : List FrameId) (a : Arena α) :
    (slots.foldl freeSlot a).free = slots.reverse ++ a.free := by
  induction slots generalizing a with
  | nil => rfl
  | cons slot slots ih =>
    rw [List.foldl_cons, ih]
    simp [freeSlot]

theorem holds_foldl_freeSlot (slots : List FrameId) (a : Arena α) :
    (slots.foldl freeSlot a).holds = a.holds := by
  induction slots generalizing a with
  | nil => rfl
  | cons slot slots ih =>
    rw [List.foldl_cons, ih]
    rfl

theorem mem_dead {id : FrameId} :
    id ∈ a.dead ↔ a.marks.getD id false = false ∧ (a.frame? id).isSome := by
  simp only [dead, List.mem_filter, List.mem_range, Bool.and_eq_true,
    Bool.not_eq_true']
  constructor
  · exact fun h => h.2
  · intro h
    obtain ⟨frame, hframe⟩ := Option.isSome_iff_exists.mp h.2
    exact ⟨lt_size_of_frame? hframe, h⟩

/-- A sweep empties the slots that are not marked, and changes no others. -/
theorem frame?_sweep (id : FrameId) :
    a.sweep.frame? id =
      if a.marks.getD id false then a.frame? id else none := by
  have hslots : a.sweep.frame? id = (a.dead.foldl freeSlot a).frame? id :=
    frame?_congr rfl id
  rw [hslots, frame?_foldl_freeSlot]
  by_cases hmark : a.marks.getD id false = true
  · simp [mem_dead, hmark]
  · rw [Bool.not_eq_true] at hmark
    cases hframe : a.frame? id <;> simp [mem_dead, hmark, hframe]

@[simp]
theorem size_sweep : a.sweep.frames.size = a.frames.size :=
  size_foldl_freeSlot a.dead a

@[simp]
theorem holds_sweep : a.sweep.holds = a.holds :=
  holds_foldl_freeSlot a.dead a

theorem free_sweep : a.sweep.free = a.dead.reverse ++ a.free :=
  free_foldl_freeSlot a.dead a

/-! ### Marks -/

theorem size_markWithin (start : FrameId) (n : Nat) (id : FrameId)
    (marks : Array Bool) :
    (markWithin a start n id marks).size = marks.size := by
  induction n generalizing id marks with
  | zero => rfl
  | succ n ih =>
    unfold markWithin
    split
    · rfl
    · dsimp only
      split
      · simp
      · rw [ih]
        simp

theorem getD_setIfInBounds_of_getD {marks : Array Bool} {slot id : FrameId}
    (hmark : marks.getD id false = true) :
    (marks.setIfInBounds slot true).getD id false = true := by
  by_cases hsize : id < marks.size
  · by_cases hslot : id = slot
    · subst id
      simp [Array.getD, hsize]
    · simpa [Array.getD, hsize, Ne.symm hslot] using hmark
  · simp [Array.getD, hsize] at hmark

theorem getD_setIfInBounds_self {marks : Array Bool} {slot : FrameId}
    (hsize : slot < marks.size) :
    (marks.setIfInBounds slot true).getD slot false = true := by
  simp [Array.getD, hsize]

theorem markWithin_keeps_marks (start : FrameId) (n : Nat) (id : FrameId)
    {marks : Array Bool} {slot : FrameId}
    (hmark : marks.getD slot false = true) :
    (markWithin a start n id marks).getD slot false = true := by
  induction n generalizing id marks with
  | zero => exact hmark
  | succ n ih =>
    unfold markWithin
    split
    · exact hmark
    · dsimp only
      split
      · exact getD_setIfInBounds_of_getD hmark
      · exact ih _ (getD_setIfInBounds_of_getD hmark)

theorem markWithin_marks_start (start : FrameId) (n : Nat)
    {marks : Array Bool} (hsize : start < marks.size) :
    (markWithin a start (n + 1) start marks).getD start false = true := by
  unfold markWithin
  simp only [bne_self_eq_false, Bool.and_false, Bool.false_eq_true, if_false]
  split
  · exact getD_setIfInBounds_self hsize
  · exact markWithin_keeps_marks _ _ _ (getD_setIfInBounds_self hsize)

/-- The marks after the frames in `slots` have been followed outwards. -/
def marksAfter (a : Arena α) (slots : List FrameId) (marks : Array Bool) :
    Array Bool :=
  slots.foldl
    (fun marks slot => markWithin a slot (a.frames.size + 1) slot marks) marks

theorem marksAfter_keeps_marks (slots : List FrameId) {marks : Array Bool}
    {id : FrameId} (hmark : marks.getD id false = true) :
    (a.marksAfter slots marks).getD id false = true := by
  induction slots generalizing marks with
  | nil => exact hmark
  | cons slot slots ih => exact ih (markWithin_keeps_marks _ _ _ hmark)

theorem marksAfter_marks_slots {slots : List FrameId} {marks : Array Bool}
    {id : FrameId} (hid : id ∈ slots) (hsize : id < marks.size) :
    (a.marksAfter slots marks).getD id false = true := by
  induction slots generalizing marks with
  | nil => simp at hid
  | cons slot slots ih =>
    rcases List.mem_cons.mp hid with rfl | hrest
    · exact marksAfter_keeps_marks slots (markWithin_marks_start id _ hsize)
    · exact ih hrest (by rwa [size_markWithin])

/-- The marks that a sweep starts with. -/
def rootMark (a : Arena α) : Array Bool :=
  (Array.replicate a.frames.size false).setIfInBounds root true

theorem marks_eq_marksAfter (a : Arena α) :
    a.marks =
      a.marksAfter ((List.range a.frames.size).filter a.isNeeded) a.rootMark :=
  rfl

@[simp]
theorem size_rootMark : a.rootMark.size = a.frames.size := by
  simp [rootMark]

theorem marks_root (hroot : root < a.frames.size) :
    a.marks.getD root false = true := by
  rw [marks_eq_marksAfter]
  apply marksAfter_keeps_marks
  exact getD_setIfInBounds_self (by simpa using hroot)

theorem marks_of_isNeeded {id : FrameId} (hneeded : a.isNeeded id = true) :
    a.marks.getD id false = true := by
  have hsize : id < a.frames.size := by
    cases hframe : a.frame? id with
    | none => simp [isNeeded, hframe] at hneeded
    | some frame => exact lt_size_of_frame? hframe
  rw [marks_eq_marksAfter]
  apply marksAfter_marks_slots
  · exact List.mem_filter.mpr ⟨List.mem_range.mpr hsize, hneeded⟩
  · simpa using hsize

/-! ### Operations that neither make nor end a frame -/

/-- `after` has the slots of `before`.  Names may have been bound, holds may
have been given out, and more frames may be pinned. -/
structure Quiet (before after : Arena α) : Prop where
  size : after.frames.size = before.frames.size
  free : after.free = before.free
  empty : ∀ id, before.frame? id = none → after.frame? id = none
  frame : ∀ id old, before.frame? id = some old →
    ∃ new, after.frame? id = some new ∧ new.outer = old.outer ∧
      new.exited = old.exited ∧ (old.pinned = true → new.pinned = true)
  bound : ∀ id old new, before.frame? id = some old → after.frame? id = some new →
    old.bindings.Bound → new.bindings.Bound

theorem Quiet.refl (a : Arena α) : Quiet a a where
  size := rfl
  free := rfl
  empty := fun _ hnone => hnone
  frame := fun _ old hold => ⟨old, hold, rfl, rfl, id⟩
  bound := by
    intro id old new hold hnew hbound
    rw [hold, Option.some.injEq] at hnew
    rwa [← hnew]

theorem Quiet.trans {b c : Arena α} (hab : Quiet a b) (hbc : Quiet b c) :
    Quiet a c where
  size := hbc.size.trans hab.size
  free := hbc.free.trans hab.free
  empty := fun id hnone => hbc.empty id (hab.empty id hnone)
  frame := by
    intro id old hold
    obtain ⟨middle, hmiddle, houter, hexited, hpinned⟩ := hab.frame id old hold
    obtain ⟨new, hnew, houter', hexited', hpinned'⟩ :=
      hbc.frame id middle hmiddle
    exact ⟨new, hnew, houter'.trans houter, hexited'.trans hexited,
      hpinned' ∘ hpinned⟩
  bound := by
    intro id old new hold hnew hbound
    obtain ⟨middle, hmiddle, -⟩ := hab.frame id old hold
    exact hbc.bound id middle new hmiddle hnew (hab.bound id old middle hold hmiddle hbound)

/-- A frame that is there afterwards was there before. -/
theorem Quiet.frame_before {b : Arena α} (hquiet : Quiet a b) {id : FrameId}
    {new : Frame α} (hnew : b.frame? id = some new) :
    ∃ old, a.frame? id = some old ∧ new.outer = old.outer ∧
      new.exited = old.exited ∧ (old.pinned = true → new.pinned = true) := by
  cases hold : a.frame? id with
  | none => simp [hquiet.empty id hold] at hnew
  | some old =>
    obtain ⟨other, hother, hkept⟩ := hquiet.frame id old hold
    rw [hnew, Option.some.injEq] at hother
    subst other
    exact ⟨old, rfl, hkept⟩

theorem quiet_modifyFrame (id : FrameId) {f : Frame α → Frame α}
    (houter : ∀ frame, (f frame).outer = frame.outer)
    (hexited : ∀ frame, (f frame).exited = frame.exited)
    (hpinned : ∀ frame, frame.pinned = true → (f frame).pinned = true)
    (hbound : ∀ frame, frame.bindings.Bound → (f frame).bindings.Bound) :
    Quiet a (a.modifyFrame id f) where
  size := size_modifyFrame id f
  free := rfl
  empty := by
    intro other hnone
    rw [frame?_modifyFrame]
    split
    · subst other
      simp [hnone]
    · exact hnone
  frame := by
    intro other old hold
    rw [frame?_modifyFrame]
    split
    · subst other
      exact ⟨f old, by simp [hold], houter old, hexited old, hpinned old⟩
    · exact ⟨old, hold, rfl, rfl, fun hpinned => hpinned⟩
  bound := by
    intro other old new hold hnew hframe
    rw [frame?_modifyFrame] at hnew
    split at hnew
    · next heq =>
      subst heq
      rw [hold, Option.map_some, Option.some.injEq] at hnew
      exact hnew ▸ hbound old hframe
    · rw [hold, Option.some.injEq] at hnew
      exact hnew ▸ hframe

theorem quiet_of_frames_eq {b : Arena α} (hframes : b.frames = a.frames)
    (hfree : b.free = a.free) : Quiet a b where
  size := by rw [hframes]
  free := hfree
  empty := fun id hnone => by rw [frame?_congr hframes, hnone]
  frame := fun id old hold =>
    ⟨old, by rw [frame?_congr hframes, hold], rfl, rfl, fun hpinned => hpinned⟩
  bound := by
    intro id old new hold hnew hbound
    rw [frame?_congr hframes, hold, Option.some.injEq] at hnew
    exact hnew ▸ hbound

theorem quiet_bind (id : FrameId) (b : Binding α) : Quiet a (a.bind id b) :=
  quiet_modifyFrame id (fun _ => rfl) (fun _ => rfl) (fun _ h => h)
    fun _ hframe => hframe.put b

theorem quiet_update (id : FrameId) (name : String) (value : α) :
    Quiet a (a.update id name value).2 := by
  unfold update
  split
  · exact Quiet.refl a
  · exact quiet_modifyFrame _ (fun _ => rfl) (fun _ => rfl) (fun _ h => h)
      fun _ hframe => hframe.rebind name value

theorem quiet_claim (hold : HoldId) : Quiet a (a.claim hold) :=
  quiet_of_frames_eq rfl rfl

theorem quiet_drop (hold : HoldId) : Quiet a (a.drop hold) :=
  quiet_of_frames_eq rfl rfl

theorem quiet_claimFrame (id : FrameId) : Quiet a (a.claimFrame id).2 := by
  unfold claimFrame
  split
  · exact quiet_claim _
  · refine Quiet.trans (b := { a with holds := a.holds.push 1 })
      (quiet_of_frames_eq rfl rfl) ?_
    exact quiet_modifyFrame id (fun _ => rfl) (fun _ => rfl) (fun _ h => h)
      fun _ h => h
  · exact quiet_of_frames_eq rfl rfl

theorem quiet_pinWithin (n : Nat) (id : FrameId) (a : Arena α) :
    Quiet a (pinWithin n id a) := by
  induction n generalizing id a with
  | zero => exact Quiet.refl a
  | succ n ih =>
    unfold pinWithin
    split
    · exact Quiet.refl a
    · split
      · exact Quiet.refl a
      · have hpin := quiet_modifyFrame (a := a) id
          (f := fun frame => { frame with pinned := true })
          (fun _ => rfl) (fun _ => rfl) (fun _ _ => rfl) (fun _ h => h)
        dsimp only
        split
        · exact hpin
        · exact hpin.trans (ih _ _)

theorem quiet_pin (id : FrameId) : Quiet a (a.pin id).2 :=
  (quiet_claimFrame id).trans (quiet_pinWithin _ id _)

/-- Pinning changes no hold. -/
theorem holds_pinWithin (n : Nat) (id : FrameId) (a : Arena α) :
    (pinWithin n id a).holds = a.holds := by
  induction n generalizing id a with
  | zero => rfl
  | succ n ih =>
    unfold pinWithin
    split
    · rfl
    · split
      · rfl
      · dsimp only
        split
        · rfl
        · exact ih _ _

/-- Pinning changes nothing of a frame but whether it is pinned. -/
theorem frame?_pinWithin (n : Nat) (start : FrameId) (a : Arena α)
    (id : FrameId) :
    ((pinWithin n start a).frame? id).map
        (fun frame => { frame with pinned := true }) =
      (a.frame? id).map (fun frame => { frame with pinned := true }) := by
  induction n generalizing start a with
  | zero => rfl
  | succ n ih =>
    have hpin : ((a.modifyFrame start fun frame =>
          { frame with pinned := true }).frame? id).map
          (fun frame => { frame with pinned := true }) =
        (a.frame? id).map (fun frame => { frame with pinned := true }) := by
      rw [frame?_modifyFrame]
      split
      · next heq =>
        subst heq
        cases a.frame? id <;> rfl
      · rfl
    unfold pinWithin
    split
    · rfl
    · split
      · rfl
      · dsimp only
        split
        · exact hpin
        · rw [ih, hpin]

theorem exists_frame?_pinWithin (n : Nat) (start : FrameId) {id : FrameId}
    {old : Frame α} (hold : a.frame? id = some old) :
    ∃ new, (pinWithin n start a).frame? id = some new ∧
      new.bindings = old.bindings ∧ new.outer = old.outer ∧
      new.exited = old.exited ∧ new.hold = old.hold := by
  have hpin := frame?_pinWithin n start a id
  rw [hold, Option.map_some] at hpin
  obtain ⟨new, hnew, heq⟩ := Option.map_eq_some_iff.mp hpin
  rw [Frame.mk.injEq] at heq
  obtain ⟨hbindings, houter, -, hexited, hsameHold⟩ := heq
  exact ⟨new, hnew, hbindings, houter, hexited, hsameHold⟩

/-- Pinning binds no name. -/
theorem bindings_pin (slot id : FrameId) :
    ((a.pin slot).2.frame? id).map (·.bindings) =
      (a.frame? id).map (·.bindings) := by
  have hpin := congrArg (Option.map (·.bindings))
    (frame?_pinWithin (a.claimFrame slot).2.frames.size slot
      (a.claimFrame slot).2 id)
  rw [Option.map_map, Option.map_map] at hpin
  refine Eq.trans hpin ?_
  change ((a.claimFrame slot).2.frame? id).map (·.bindings) = _
  unfold claimFrame
  split
  · rfl
  · simp only [frame?_modifyFrame]
    split
    · next heq =>
      subst heq
      rw [Option.map_map]
      rfl
    · rfl
  · rfl

/-- What a client gets that pins a frame: one more owner of the hold of the
frame, which it keeps if it has one. -/
structure Pinned (a : Arena α) (slot : FrameId) (hold : HoldId)
    (b : Arena α) : Prop where
  owners : ∀ id,
    b.holds.getD id 0 = a.holds.getD id 0 + if hold = id then 1 else 0
  hold_lt : hold < b.holds.size
  size_le : a.holds.size ≤ b.holds.size
  frame : ∀ id old, a.frame? id = some old →
    ∃ new, b.frame? id = some new ∧ new.bindings = old.bindings ∧
      (id ≠ slot → new.hold = old.hold) ∧
      (id = slot → new.hold = some hold ∧
        ∀ h, old.hold = some h → h = hold)

theorem Pinned.hold_of_ne {b : Arena α} {slot id : FrameId} {hold : HoldId}
    {old new : Frame α} (hpin : Pinned a slot hold b)
    (hbefore : a.frame? id = some old) (hnew : b.frame? id = some new)
    (hne : id ≠ slot) : new.hold = old.hold := by
  obtain ⟨new', hnew', -, hother, -⟩ := hpin.frame id old hbefore
  obtain rfl := Option.some.inj (hnew.symm.trans hnew')
  exact hother hne

theorem Pinned.hold_eq {b : Arena α} {slot : FrameId} {hold : HoldId}
    {old new : Frame α} (hpin : Pinned a slot hold b)
    (hbefore : a.frame? slot = some old) (hnew : b.frame? slot = some new) :
    new.hold = some hold ∧ ∀ h, old.hold = some h → h = hold := by
  obtain ⟨new', hnew', -, -, hself⟩ := hpin.frame slot old hbefore
  obtain rfl := Option.some.inj (hnew.symm.trans hnew')
  exact hself rfl

/-- A frame keeps the hold it has. -/
theorem Pinned.hold_kept {b : Arena α} {slot id : FrameId} {hold h : HoldId}
    {old new : Frame α} (hpin : Pinned a slot hold b)
    (hbefore : a.frame? id = some old) (hnew : b.frame? id = some new)
    (hhold : old.hold = some h) : new.hold = some h := by
  by_cases hid : id = slot
  · subst hid
    obtain ⟨hsome, hsame⟩ := hpin.hold_eq hbefore hnew
    rw [hsome, hsame h hhold]
  · rw [hpin.hold_of_ne hbefore hnew hid, hhold]

theorem pinned_claimFrame {slot : FrameId} {frame : Frame α}
    (hframe : a.frame? slot = some frame)
    (hgiven : ∀ hold, frame.hold = some hold → hold < a.holds.size) :
    Pinned a slot (a.claimFrame slot).1 (a.claimFrame slot).2 := by
  unfold claimFrame
  rw [hframe, Option.map_some]
  cases hhold : frame.hold with
  | some hold =>
    have hlt := hgiven hold hhold
    refine ⟨?_, ?_, ?_, ?_⟩
    · intro id
      by_cases hid : hold = id
      · subst hid
        simp [claim, Array.getD, hlt, Array.getElem_modify]
      · by_cases hsize : id < a.holds.size
        · simp [claim, Array.getD, hsize, Array.getElem_modify, hid]
        · simp [claim, Array.getD, hsize, hid]
    · simpa [claim] using hlt
    · simp [claim]
    · intro id old hold'
      refine ⟨old, hold', rfl, fun _ => rfl, ?_⟩
      rintro rfl
      rw [hframe, Option.some.injEq] at hold'
      subst hold'
      refine ⟨hhold, ?_⟩
      intro h hh
      rw [hhold, Option.some.injEq] at hh
      exact hh.symm
  | none =>
    refine ⟨?_, ?_, ?_, ?_⟩
    · intro id
      have hholds : (modifyFrame { a with holds := a.holds.push 1 } slot
          fun frame => { frame with hold := some a.holds.size }).holds =
          a.holds.push 1 := rfl
      simp only [hholds]
      rcases Nat.lt_trichotomy id a.holds.size with hlt | heq | hgt
      · simp [Array.getD, Array.getElem_push, hlt, Nat.ne_of_gt hlt,
          Nat.lt_succ_of_lt hlt]
      · subst heq
        simp [Array.getD]
      · simp [Array.getD, Nat.ne_of_lt hgt, Nat.not_lt.mpr hgt,
          Nat.not_lt.mpr (Nat.le_of_lt hgt)]
    · simp [modifyFrame]
    · simp [modifyFrame]
    · intro id old hold'
      have hold : frame? { a with holds := a.holds.push 1 } id = some old :=
        hold'
      simp only [frame?_modifyFrame]
      by_cases hid : id = slot
      · subst hid
        rw [hframe, Option.some.injEq] at hold'
        subst hold'
        refine ⟨{ frame with hold := some a.holds.size }, by simp [hold], rfl,
          fun hne => absurd rfl hne, fun _ => ⟨rfl, ?_⟩⟩
        intro h hh
        rw [hhold] at hh
        cases hh
      · rw [if_neg hid]
        exact ⟨old, hold, rfl, fun _ => rfl, fun heq => absurd heq hid⟩

theorem pinned_pin {slot : FrameId} {frame : Frame α}
    (hframe : a.frame? slot = some frame)
    (hgiven : ∀ hold, frame.hold = some hold → hold < a.holds.size) :
    Pinned a slot (a.pin slot).1 (a.pin slot).2 := by
  have hclaim := pinned_claimFrame hframe hgiven
  have hholds : (a.pin slot).2.holds = (a.claimFrame slot).2.holds :=
    holds_pinWithin _ _ _
  refine ⟨?_, ?_, ?_, ?_⟩
  · intro id
    rw [hholds]
    exact hclaim.owners id
  · rw [hholds]
    exact hclaim.hold_lt
  · rw [hholds]
    exact hclaim.size_le
  · intro id old hold
    obtain ⟨claimed, hclaimed, hbindings, hother, hself⟩ :=
      hclaim.frame id old hold
    obtain ⟨new, hnew, hsameBindings, -, -, hsameHold⟩ :=
      exists_frame?_pinWithin (a.claimFrame slot).2.frames.size slot hclaimed
    exact ⟨new, hnew, hsameBindings.trans hbindings,
      fun hne => hsameHold.trans (hother hne),
      fun heq => ⟨hsameHold.trans (hself heq).1, (hself heq).2⟩⟩

/-! ### The order among the slots -/

/-- The frame in the slot is there and its block has not ended. -/
def Running (a : Arena α) (id : FrameId) : Prop :=
  ∃ frame, a.frame? id = some frame ∧ frame.exited = false

/-- The order that all operations keep, whatever slots they are given. -/
structure Tidy (a : Arena α) : Prop where
  free_nodup : a.free.Nodup
  mem_free : ∀ slot,
    slot ∈ a.free ↔ slot < a.frames.size ∧ a.frame? slot = none
  root_running : a.Running root
  exited_pinned : ∀ id frame, a.frame? id = some frame →
    frame.exited = true → frame.pinned = true
  constants_bound : ∀ id frame, a.frame? id = some frame → frame.bindings.Bound

theorem tidy_new : (new : Arena α).Tidy where
  free_nodup := List.nodup_nil
  mem_free := by
    intro slot
    have hfree : (new : Arena α).free = [] := rfl
    rw [hfree]
    constructor
    · intro hslot
      simp at hslot
    · rintro ⟨hsize, hnone⟩
      have hslot : slot = 0 := Nat.lt_one_iff.mp hsize
      subst slot
      cases hnone
  root_running := ⟨_, rfl, rfl⟩
  exited_pinned := by
    intro id frame hframe hexited
    have hid : id = 0 := Nat.lt_one_iff.mp (lt_size_of_frame? hframe)
    subst id
    cases hframe
    cases hexited
  constants_bound := by
    intro id frame hframe
    have hid : id = 0 := Nat.lt_one_iff.mp (lt_size_of_frame? hframe)
    subst id
    cases hframe
    exact Bindings.bound_empty

theorem Tidy.quiet {b : Arena α} (htidy : a.Tidy) (hquiet : Quiet a b) :
    b.Tidy where
  free_nodup := hquiet.free ▸ htidy.free_nodup
  mem_free := by
    intro slot
    rw [hquiet.free, htidy.mem_free, hquiet.size]
    refine and_congr_right fun _ => ⟨hquiet.empty slot, fun hnone => ?_⟩
    cases hold : a.frame? slot with
    | none => rfl
    | some old =>
      obtain ⟨new, hnew, -⟩ := hquiet.frame slot old hold
      simp [hnone] at hnew
  root_running := by
    obtain ⟨old, hold, hrunning⟩ := htidy.root_running
    obtain ⟨new, hnew, -, hexited, -⟩ := hquiet.frame root old hold
    exact ⟨new, hnew, hexited.trans hrunning⟩
  exited_pinned := by
    intro id new hnew hexited
    obtain ⟨old, hold, -, hsame, hpinned⟩ := hquiet.frame_before hnew
    exact hpinned (htidy.exited_pinned id old hold (hsame ▸ hexited))
  constants_bound := by
    intro id new hnew
    obtain ⟨old, hold, -⟩ := hquiet.frame_before hnew
    exact hquiet.bound id old new hold hnew (htidy.constants_bound id old hold)

theorem Quiet.running_iff {b : Arena α} (hquiet : Quiet a b) (id : FrameId) :
    b.Running id ↔ a.Running id := by
  constructor
  · rintro ⟨new, hnew, hrunning⟩
    obtain ⟨old, hold, -, hexited, -⟩ := hquiet.frame_before hnew
    exact ⟨old, hold, hexited ▸ hrunning⟩
  · rintro ⟨old, hold, hrunning⟩
    obtain ⟨new, hnew, -, hexited, -⟩ := hquiet.frame id old hold
    exact ⟨new, hnew, hexited.trans hrunning⟩

/-! ### New frames -/

/-- The slot of a new frame was empty. -/
theorem Tidy.frame?_child_slot (htidy : a.Tidy) (outer : FrameId) :
    a.frame? (a.child outer).1 = none := by
  unfold child
  split
  next slot free hfree =>
    exact ((htidy.mem_free slot).mp (by simp [hfree])).2
  next => exact frame?_of_size_le (Nat.le_refl _)

theorem Tidy.frame?_child (htidy : a.Tidy) (outer id : FrameId) :
    (a.child outer).2.frame? id =
      if id = (a.child outer).1 then some { outer := some outer }
      else a.frame? id := by
  unfold child
  split
  next slot free hfree =>
    have hslot := ((htidy.mem_free slot).mp (by simp [hfree])).1
    by_cases hid : id = slot
    · subst id
      simp [frame?, Array.getD, hslot]
    · by_cases hsize : id < a.frames.size
      · simp [frame?, Array.getD, hid, hsize, Ne.symm hid]
      · simp [frame?, Array.getD, hid, hsize]
  next =>
    rcases Nat.lt_trichotomy id a.frames.size with hlt | heq | hgt
    · simp [frame?, Array.getD, Array.getElem_push, hlt, Nat.ne_of_lt hlt,
        Nat.lt_succ_of_lt hlt]
    · subst id
      simp [frame?, Array.getD]
    · simp [frame?, Array.getD, Nat.ne_of_gt hgt, Nat.not_lt.mpr hgt,
        Nat.not_lt.mpr (Nat.le_of_lt hgt)]

theorem Tidy.child (htidy : a.Tidy) (outer : FrameId) :
    (a.child outer).2.Tidy where
  free_nodup := by
    unfold Arena.child
    split
    next slot free hfree =>
      have hnodup := htidy.free_nodup
      rw [hfree] at hnodup
      exact hnodup.of_cons
    next => exact htidy.free_nodup
  mem_free := by
    intro id
    rw [htidy.frame?_child]
    have hfree := htidy.mem_free id
    have hnodup := htidy.free_nodup
    unfold Arena.child
    split
    next slot free heq =>
      rw [heq] at hfree hnodup
      by_cases hid : id = slot
      · subst id
        simp [(List.nodup_cons.mp hnodup).1]
      · simpa [hid] using hfree
    next heq =>
      rw [heq] at hfree
      simp only [heq, List.not_mem_nil, false_iff, Array.size_push, not_and]
      rw [List.mem_nil_iff, false_iff, not_and] at hfree
      intro hsize
      split
      · simp
      next hne =>
        exact hfree (Nat.lt_of_le_of_ne (Nat.le_of_lt_succ hsize) hne)
  root_running := by
    obtain ⟨frame, hframe, hrunning⟩ := htidy.root_running
    refine ⟨frame, ?_, hrunning⟩
    have hslot := htidy.frame?_child_slot outer
    rw [htidy.frame?_child, if_neg, hframe]
    rintro heq
    rw [← heq, hframe] at hslot
    cases hslot
  exited_pinned := by
    intro id frame hframe hexited
    rw [htidy.frame?_child] at hframe
    split at hframe
    · cases hframe
      cases hexited
    · exact htidy.exited_pinned id frame hframe hexited
  constants_bound := by
    intro id frame hframe
    rw [htidy.frame?_child] at hframe
    split at hframe
    · cases hframe
      exact Bindings.bound_empty
    · exact htidy.constants_bound id frame hframe

/-! ### The end of a frame -/

theorem isNeeded_of_running {id : FrameId} (hrunning : a.Running id) :
    a.isNeeded id = true := by
  obtain ⟨frame, hframe, hexited⟩ := hrunning
  simp [isNeeded, hframe, hexited]

theorem frame?_sweep_of_marks {id : FrameId}
    (hmark : a.marks.getD id false = true) :
    a.sweep.frame? id = a.frame? id := by
  rw [frame?_sweep, if_pos hmark]

/-- A frame that is left after a sweep was there before it. -/
theorem frame?_of_frame?_sweep {id : FrameId} {frame : Frame α}
    (hframe : a.sweep.frame? id = some frame) :
    a.marks.getD id false = true ∧ a.frame? id = some frame := by
  rw [frame?_sweep] at hframe
  split at hframe
  next hmark => exact ⟨hmark, hframe⟩
  next => cases hframe

theorem running_sweep_iff (id : FrameId) :
    a.sweep.Running id ↔ a.Running id := by
  constructor
  · rintro ⟨frame, hframe, hrunning⟩
    exact ⟨frame, (frame?_of_frame?_sweep hframe).2, hrunning⟩
  · intro hrunning
    have hmark := marks_of_isNeeded (isNeeded_of_running hrunning)
    obtain ⟨frame, hframe, hexited⟩ := hrunning
    exact ⟨frame, (frame?_sweep_of_marks hmark).trans hframe, hexited⟩

theorem nodup_dead : a.dead.Nodup :=
  List.Nodup.filter _ List.nodup_range

theorem Tidy.sweep (htidy : a.Tidy) : a.sweep.Tidy where
  free_nodup := by
    rw [free_sweep]
    refine List.Nodup.append (List.nodup_reverse.mpr nodup_dead)
      htidy.free_nodup ?_
    intro slot hdead hfree
    have hnone := ((htidy.mem_free slot).mp hfree).2
    have hsome := (mem_dead.mp (List.mem_reverse.mp hdead)).2
    simp [hnone] at hsome
  mem_free := by
    intro slot
    rw [free_sweep, List.mem_append, List.mem_reverse, mem_dead,
      htidy.mem_free, frame?_sweep, size_sweep]
    cases hframe : a.frame? slot with
    | none => simp
    | some frame =>
      have hsize := lt_size_of_frame? hframe
      by_cases hmark : a.marks.getD slot false = true <;> simp [hmark, hsize]
  root_running := (running_sweep_iff root).mpr htidy.root_running
  exited_pinned := fun id frame hframe =>
    htidy.exited_pinned id frame (frame?_of_frame?_sweep hframe).2
  constants_bound := fun id frame hframe =>
    htidy.constants_bound id frame (frame?_of_frame?_sweep hframe).2

theorem Tidy.freeSlot (htidy : a.Tidy) {slot : FrameId}
    (hroot : slot ≠ root) {frame : Frame α}
    (hframe : a.frame? slot = some frame) : (a.freeSlot slot).Tidy where
  free_nodup := by
    refine List.nodup_cons.mpr ⟨?_, htidy.free_nodup⟩
    intro hfree
    have hnone := ((htidy.mem_free slot).mp hfree).2
    simp [hframe] at hnone
  mem_free := by
    intro id
    have hfree : (a.freeSlot slot).free = slot :: a.free := rfl
    rw [hfree, List.mem_cons, htidy.mem_free, frame?_freeSlot, size_freeSlot]
    by_cases hid : id = slot
    · subst id
      simp [lt_size_of_frame? hframe]
    · simp [hid]
  root_running := by
    obtain ⟨rootFrame, hrootFrame, hrunning⟩ := htidy.root_running
    refine ⟨rootFrame, ?_, hrunning⟩
    rw [frame?_freeSlot, if_neg (Ne.symm hroot), hrootFrame]
  exited_pinned := by
    intro id other hother
    rw [frame?_freeSlot] at hother
    split at hother
    · cases hother
    · exact htidy.exited_pinned id other hother
  constants_bound := by
    intro id other hother
    rw [frame?_freeSlot] at hother
    split at hother
    · cases hother
    · exact htidy.constants_bound id other hother

/-- The arena where the block of the pinned frame in the slot has ended. -/
def markExited (a : Arena α) (id : FrameId) : Arena α :=
  { a.modifyFrame id (fun frame => { frame with exited := true }) with
    exited := a.exited + 1 }

theorem frame?_markExited (id other : FrameId) :
    (a.markExited id).frame? other =
      if other = id then
        (a.frame? id).map fun frame => { frame with exited := true }
      else a.frame? other := by
  rw [← frame?_modifyFrame]
  exact frame?_congr rfl other

theorem Tidy.markExited (htidy : a.Tidy) {id : FrameId} (hroot : id ≠ root)
    {frame : Frame α} (hframe : a.frame? id = some frame)
    (hpinned : frame.pinned = true) : (a.markExited id).Tidy where
  free_nodup := htidy.free_nodup
  mem_free := by
    intro slot
    have hfree : slot ∈ (a.markExited id).free ↔ slot ∈ a.free := Iff.rfl
    have hsize : (a.markExited id).frames.size = a.frames.size :=
      size_modifyFrame id _
    rw [hfree, htidy.mem_free, frame?_markExited, hsize]
    split
    · subst slot
      simp [hframe]
    · rfl
  root_running := by
    obtain ⟨rootFrame, hrootFrame, hrunning⟩ := htidy.root_running
    refine ⟨rootFrame, ?_, hrunning⟩
    rw [frame?_markExited, if_neg (Ne.symm hroot), hrootFrame]
  exited_pinned := by
    intro other otherFrame hother hexited
    rw [frame?_markExited] at hother
    split at hother
    · rw [hframe, Option.map_some, Option.some.injEq] at hother
      subst otherFrame
      exact hpinned
    · exact htidy.exited_pinned other otherFrame hother hexited
  constants_bound := by
    intro other otherFrame hother
    rw [frame?_markExited] at hother
    split at hother
    · rw [hframe, Option.map_some, Option.some.injEq] at hother
      subst otherFrame
      exact htidy.constants_bound id frame hframe
    · exact htidy.constants_bound other otherFrame hother

/-- What the end of a block does: nothing to the root or to what is no running
frame, a frame that is not pinned is freed, and a pinned one exits, after which
there may be a sweep. -/
theorem release_cases (a : Arena α) (id : FrameId) :
    (a.release id = a ∧ (id = root ∨ ¬ a.Running id)) ∨
    (∃ frame, id ≠ root ∧ a.frame? id = some frame ∧
      frame.pinned = false ∧ a.release id = a.freeSlot id) ∨
    (∃ frame, id ≠ root ∧ a.frame? id = some frame ∧
      frame.pinned = true ∧ frame.exited = false ∧
      (a.release id = a.markExited id ∨
        a.release id = (a.markExited id).sweep)) := by
  unfold release
  by_cases hroot : id = root
  · simp [hroot]
  rw [if_neg hroot]
  cases hframe : a.frame? id with
  | none =>
    refine Or.inl ⟨rfl, Or.inr ?_⟩
    rintro ⟨frame, hsome, -⟩
    simp [hframe] at hsome
  | some frame =>
    cases hpinned : frame.pinned with
    | false =>
      exact Or.inr (Or.inl ⟨frame, hroot, rfl, hpinned, by simp [hpinned]⟩)
    | true =>
      cases hexited : frame.exited with
      | true =>
        refine Or.inl ⟨by simp [hpinned, hexited], Or.inr ?_⟩
        rintro ⟨other, hother, hrunning⟩
        rw [hframe, Option.some.injEq] at hother
        subst other
        simp [hexited] at hrunning
      | false =>
        refine Or.inr (Or.inr ⟨frame, hroot, rfl, hpinned, hexited, ?_⟩)
        simp only [hpinned, hexited, Bool.not_true, Bool.false_eq_true, if_false]
        split
        · exact Or.inr rfl
        · exact Or.inl rfl

theorem Tidy.release (htidy : a.Tidy) (id : FrameId) : (a.release id).Tidy := by
  rcases release_cases a id with ⟨hsame, -⟩ |
    ⟨frame, hroot, hframe, -, hfreed⟩ |
    ⟨frame, hroot, hframe, hpinned, -, hexit⟩
  · rwa [hsame]
  · rw [hfreed]
    exact htidy.freeSlot hroot hframe
  · have hmarked := htidy.markExited hroot hframe hpinned
    rcases hexit with hexit | hexit
    · rwa [hexit]
    · rw [hexit]
      exact hmarked.sweep

/-- The end of a block ends one frame, and no other. -/
theorem running_release_iff {id : FrameId}
    (hroot : id ≠ root) (other : FrameId) :
    (a.release id).Running other ↔ a.Running other ∧ other ≠ id := by
  have hmarked (frame : Frame α) (hframe : a.frame? id = some frame) :
      (a.markExited id).Running other ↔ a.Running other ∧ other ≠ id := by
    unfold Running
    rw [frame?_markExited]
    split
    · next heq => simp [hframe, heq]
    · next hne => simp [hne]
  rcases release_cases a id with ⟨hsame, hid⟩ |
    ⟨frame, -, hframe, hpinned, hfreed⟩ | ⟨frame, -, hframe, -, -, hexit⟩
  · rw [hsame]
    refine ⟨fun hrunning => ⟨hrunning, ?_⟩, And.left⟩
    rintro rfl
    exact (hid.resolve_left hroot) hrunning
  · rw [hfreed]
    unfold Running
    rw [frame?_freeSlot]
    split
    · next heq => simp [heq]
    · next hne => simp [hne]
  · rcases hexit with hexit | hexit
    · rw [hexit, hmarked frame hframe]
    · rw [hexit, running_sweep_iff, hmarked frame hframe]

/-- A frame that is left when a block has ended binds what it bound before. -/
theorem bindings_of_frame?_release {id other : FrameId} {new : Frame α}
    (hnew : (a.release id).frame? other = some new) :
    ∃ old, a.frame? other = some old ∧ new.bindings = old.bindings := by
  have hmarked : ∀ new, (a.markExited id).frame? other = some new →
      ∃ old, a.frame? other = some old ∧ new.bindings = old.bindings := by
    intro new hnew
    rw [frame?_markExited] at hnew
    split at hnew
    · next heq =>
      subst heq
      obtain ⟨old, hold, rfl⟩ := Option.map_eq_some_iff.mp hnew
      exact ⟨old, hold, rfl⟩
    · exact ⟨new, hnew, rfl⟩
  rcases release_cases a id with ⟨hsame, -⟩ | ⟨frame, -, -, -, hfreed⟩ |
    ⟨frame, -, -, -, -, hexit⟩
  · rw [hsame] at hnew
    exact ⟨new, hnew, rfl⟩
  · rw [hfreed, frame?_freeSlot] at hnew
    split at hnew
    · cases hnew
    · exact ⟨new, hnew, rfl⟩
  · rcases hexit with hexit | hexit
    · rw [hexit] at hnew
      exact hmarked new hnew
    · rw [hexit] at hnew
      exact hmarked new (frame?_of_frame?_sweep hnew).2

theorem Tidy.running_child_iff (htidy : a.Tidy) (outer id : FrameId) :
    (a.child outer).2.Running id ↔
      a.Running id ∨ id = (a.child outer).1 := by
  unfold Running
  rw [htidy.frame?_child]
  split
  · next heq => simp [heq]
  · next hne => simp [hne]

end Arena

end Script.Scope
