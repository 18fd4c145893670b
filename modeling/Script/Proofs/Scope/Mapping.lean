import Script.Scope.Arena

/-!
# Arenas with other values

Where a frame is, what it binds and how long it stays does not depend on the
values in it.  So each operation on arenas commutes with a map over the values.
-/

namespace Script.Scope

open Std (ExtTreeMap)

variable {α β : Type} (f : α → β)

/-- The binding with another value; it is a constant if it was one. -/
def Binding.map (b : Binding α) : Binding β :=
  { name := b.name, value := f b.value, constant := b.constant }

/-- All bindings with other values, under the same names. -/
def Bindings.map (bindings : Bindings α) : Bindings β where
  values := bindings.values.map fun _ => f
  constants := bindings.constants

/-- Whatever says how long a frame stays is left alone. -/
def Frame.map (frame : Frame α) : Frame β where
  bindings := frame.bindings.map f
  outer := frame.outer
  pinned := frame.pinned
  exited := frame.exited
  hold := frame.hold

/-! ### Bindings -/

/-- Looking a name up finds what it was bound to, with the other value. -/
theorem find?_map (name : String) (bindings : Bindings α) :
    find? name (bindings.map f) = (find? name bindings).map (Binding.map f) := by
  simp only [find?, Bindings.map, ExtTreeMap.getElem?_map, Option.map_map]
  rfl

/-- A value can be changed before it is stored or with all the others. -/
theorem map_insert {κ : Type} [Ord κ] [Std.TransOrd κ] [Std.LawfulEqOrd κ] (key : κ)
    (value : α) (table : ExtTreeMap κ α) :
    (table.insert key value).map (fun _ => f) =
      (table.map fun _ => f).insert key (f value) := by
  apply ExtTreeMap.ext_getElem?
  intro other
  simp only [ExtTreeMap.getElem?_map, ExtTreeMap.getElem?_insert]
  split <;> rfl

/-- Binding a name and changing all values can be done in either order. -/
theorem put_map (b : Binding α) (bindings : Bindings α) :
    put (b.map f) (bindings.map f) = (put b bindings).map f := by
  simp only [put, Bindings.map, map_insert]
  rfl

theorem rebind_map (name : String) (value : α) (bindings : Bindings α) :
    rebind name (f value) (bindings.map f) = (rebind name value bindings).map f := by
  have hvalues : (bindings.values.map fun _ => f).modify name (fun _ => f value) =
      (bindings.values.modify name fun _ => value).map fun _ => f := by
    apply ExtTreeMap.ext_getElem?
    intro other
    simp only [ExtTreeMap.getElem?_modify, ExtTreeMap.getElem?_map, Option.map_map]
    split <;> simp [Function.comp_def]
  simp only [rebind, Bindings.map, hvalues]

@[simp]
theorem Bindings.map_empty : Bindings.map f {} = {} := rfl

/-- Bindings stay the same if no value changes. -/
theorem Bindings.map_id (bindings : Bindings α) :
    bindings.map (fun value => value) = bindings := by
  simp only [Bindings.map, ExtTreeMap.map_id]

namespace Arena

/-- The arena with other values in all its frames.  The slots, the free list, the counters and
the holds are the same. -/
def map (a : Arena α) : Arena β where
  frames := a.frames.map (Option.map (Frame.map f))
  free := a.free
  exited := a.exited
  sweepAt := a.sweepAt
  holds := a.holds

/-- An arena stays the same if no value changes. -/
theorem map_id (a : Arena α) : (a.map fun value => value) = a := by
  have hframe : Frame.map (fun value : α => value) = id := by
    funext frame
    simp only [Frame.map, Bindings.map_id, id]
  have hframes : a.frames.map (Option.map (Frame.map fun value : α => value)) =
      a.frames := by
    rw [hframe, Option.map_id_fun]
    exact Array.map_id a.frames
  simp only [map, hframes]

theorem new_map : (new : Arena α).map f = new := by
  simp [map, new, Frame.map]

theorem size_frames_map (a : Arena α) :
    (a.map f).frames.size = a.frames.size := by
  simp [map]

/-- The same slots are empty, and the others have the same frames with other values. -/
theorem frame?_map (a : Arena α) (id : FrameId) :
    (a.map f).frame? id = (a.frame? id).map (Frame.map f) := by
  by_cases hid : id < a.frames.size <;> simp [frame?, map, Array.getD, hid]

/-- A change of a frame that has a counterpart for the other values. -/
theorem modifyFrame_map (a : Arena α) (id : FrameId) {g : Frame α → Frame α}
    {g' : Frame β → Frame β} (hg : ∀ frame, g' (frame.map f) = (g frame).map f) :
    (a.map f).modifyFrame id g' = (a.modifyFrame id g).map f := by
  simp only [modifyFrame, map]
  congr 1
  apply Array.ext
  · simp
  · intro i hi hi'
    simp only [Array.getElem_modify, Array.getElem_map]
    split <;> simp [Function.comp_def, hg]

/-- A new frame goes to the same slot. -/
theorem child_map (a : Arena α) (outer : FrameId) :
    (a.map f).child outer =
      ((a.child outer).1, (a.child outer).2.map f) := by
  unfold child
  cases hfree : a.free with
  | nil => simp [map, hfree, Frame.map]
  | cons slot free => simp [map, hfree, Frame.map, Array.map_setIfInBounds]

/-! ### Names -/

/-- The walk outwards ends at the same frame. -/
theorem resolveWithin_map (a : Arena α) (name : String) (n : Nat)
    (id : FrameId) :
    (a.map f).resolveWithin name n id =
      (a.resolveWithin name n id).map fun (id, b) => (id, b.map f) := by
  induction n generalizing id with
  | zero => rfl
  | succ n ih =>
    simp only [resolveWithin, frame?_map]
    cases a.frame? id with
    | none => rfl
    | some frame =>
      simp only [Option.map_some, Frame.map, find?_map]
      cases find? name frame.bindings with
      | some b => rfl
      | none =>
        cases frame.outer with
        | none => rfl
        | some outer => exact ih outer

theorem resolve?_map (a : Arena α) (id : FrameId) (name : String) :
    (a.map f).resolve? id name =
      (a.resolve? id name).map fun (id, b) => (id, b.map f) := by
  rw [resolve?, resolve?, size_frames_map, resolveWithin_map]

theorem get?_map (a : Arena α) (id : FrameId) (name : String) :
    (a.map f).get? id name = (a.get? id name).map f := by
  simp [get?, resolve?_map, Function.comp_def, Binding.map]

theorem bind_map (a : Arena α) (id : FrameId) (b : Binding α) :
    (a.map f).bind id (b.map f) = (a.bind id b).map f :=
  modifyFrame_map f a id fun frame => by simp [Frame.map, put_map]

theorem set_map (a : Arena α) (id : FrameId) (name : String) (value : α) :
    (a.map f).set id name (f value) = (a.set id name value).map f :=
  bind_map f a id { name, value, constant := false }

/-- The same binding is changed, or none in both arenas. -/
theorem update_map (a : Arena α) (id : FrameId) (name : String) (value : α) :
    (a.map f).update id name (f value) =
      ((a.update id name value).1, (a.update id name value).2.map f) := by
  simp only [update, resolve?_map]
  cases a.resolve? id name with
  | none => rfl
  | some found =>
    simp only [Option.map_some, Prod.mk.injEq, true_and]
    exact modifyFrame_map f a found.1 fun frame => by
      simp [Frame.map, rebind_map]

theorem isConstant_map (a : Arena α) (id : FrameId) (name : String) :
    (a.map f).isConstant id name = a.isConstant id name := by
  simp only [isConstant, resolve?_map, Option.any_map]
  rfl

/-- Which names are constants does not depend on the values. -/
theorem isLocalConstant_map (a : Arena α) (id : FrameId) (name : String) :
    (a.map f).isLocalConstant id name = a.isLocalConstant id name := by
  simp only [isLocalConstant, frame?_map, Option.any_map]
  rfl

/-! ### Holds -/

theorem claimFrame_map (a : Arena α) (id : FrameId) :
    (a.map f).claimFrame id =
      ((a.claimFrame id).1, (a.claimFrame id).2.map f) := by
  have hhold : ((a.map f).frame? id).map (·.hold) =
      (a.frame? id).map (·.hold) := by
    rw [frame?_map, Option.map_map]
    rfl
  unfold claimFrame
  rw [hhold]
  generalize (a.frame? id).map (·.hold) = held
  rcases held with _ | _ | hold
  · rfl
  · exact congrArg (Prod.mk a.holds.size)
      (modifyFrame_map f { a with holds := a.holds.push 1 } id fun frame => rfl)
  · rfl

theorem pinWithin_map (n : Nat) (id : FrameId) (a : Arena α) :
    pinWithin n id (a.map f) = (pinWithin n id a).map f := by
  -- Each step marks one frame, which commutes with the map, and goes on from the next one.
  induction n generalizing id a with
  | zero => rfl
  | succ n ih =>
    simp only [pinWithin, frame?_map]
    cases a.frame? id with
    | none => rfl
    | some frame =>
      have hmark : (a.map f).modifyFrame id (fun fr => { fr with pinned := true }) =
          (a.modifyFrame id fun fr => { fr with pinned := true }).map f :=
        modifyFrame_map f a id fun fr => rfl
      simp only [Option.map_some, Frame.map, hmark]
      split
      · rfl
      · cases frame.outer with
        | none => rfl
        | some outer => exact ih outer _

/-- The same frames are pinned, and the same hold is given. -/
theorem pin_map (a : Arena α) (id : FrameId) :
    (a.map f).pin id = ((a.pin id).1, (a.pin id).2.map f) := by
  simp only [pin, claimFrame_map, size_frames_map, pinWithin_map]

/-! ### The end of a frame -/

/-- The hold of a frame and the end of its block keep it, and neither depends on values. -/
theorem isNeeded_map (a : Arena α) (slot : FrameId) :
    (a.map f).isNeeded slot = a.isNeeded slot := by
  simp only [isNeeded, frame?_map, Option.any_map]
  rfl

theorem markWithin_map (a : Arena α) (start : FrameId) (n : Nat)
    (id : FrameId) (marks : Array Bool) :
    (a.map f).markWithin start n id marks = a.markWithin start n id marks := by
  induction n generalizing id marks with
  | zero => rfl
  | succ n ih =>
    have houter : ((a.map f).frame? id).bind (·.outer) =
        (a.frame? id).bind (·.outer) := by
      rw [frame?_map, Option.bind_map]
      rfl
    simp only [markWithin, houter]
    split
    · rfl
    · split
      · rfl
      · exact ih _ _

/-- A sweep finds the same frames to free. -/
theorem dead_map (a : Arena α) : (a.map f).dead = a.dead := by
  have hneeded : (a.map f).isNeeded = a.isNeeded :=
    funext fun slot => isNeeded_map f a slot
  have hmarks : (a.map f).marks = a.marks := by
    simp only [marks, size_frames_map, hneeded, markWithin_map]
  simp [dead, hmarks, size_frames_map, frame?_map]

theorem freeSlot_map (a : Arena α) (slot : FrameId) :
    (a.map f).freeSlot slot = (a.freeSlot slot).map f := by
  simp [freeSlot, map, Array.map_setIfInBounds]

theorem foldl_freeSlot_map (slots : List FrameId) (a : Arena α) :
    slots.foldl freeSlot (a.map f) = (slots.foldl freeSlot a).map f := by
  induction slots generalizing a with
  | nil => rfl
  | cons slot slots ih => rw [List.foldl_cons, freeSlot_map, ih, List.foldl_cons]

/-- The frames that a sweep leaves are the same ones with other values. -/
theorem sweep_map (a : Arena α) : (a.map f).sweep = a.sweep.map f := by
  simp only [sweep, dead_map, foldl_freeSlot_map]
  rfl

/-- The frame is freed, kept or swept in both arenas. -/
theorem release_map (a : Arena α) (id : FrameId) :
    (a.map f).release id = (a.release id).map f := by
  have hexit : (a.map f).modifyFrame id (fun fr => { fr with exited := true }) =
      (a.modifyFrame id fun fr => { fr with exited := true }).map f :=
    modifyFrame_map f a id fun fr => rfl
  unfold release
  rw [frame?_map, freeSlot_map, hexit]
  split
  · rfl
  · cases a.frame? id with
    | none => rfl
    | some frame =>
      simp only [Option.map_some, Frame.map]
      split
      · rfl
      · split
        · rfl
        · generalize a.modifyFrame id _ = marked
          change (if marked.sweepAt ≤ marked.exited + 1 then
            (map f { marked with exited := marked.exited + 1 }).sweep
            else map f { marked with exited := marked.exited + 1 }) = _
          rw [sweep_map]
          split <;> rfl

end Arena

end Script.Scope
