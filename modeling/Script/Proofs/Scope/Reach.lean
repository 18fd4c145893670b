import Script.Proofs.Scope.Slots
import Mathlib.Data.Finset.Card

/-!
# What can still be reached

A frame can be reached if it is needed for its own sake, or if it lies around a
frame that can be reached.  A sweep keeps all of these, whatever the chains of
frames look like: the marks spread from each needed frame outwards, as far as there
are frames.

`Carries` says of two arenas that what can be reached in the first one is still there
in the second one, and how its names have fared.
-/

namespace Script.Scope.Arena

variable {α : Type} {a b c : Arena α}

/-- The frame is needed, or it lies around one that can be reached. -/
inductive Reachable (a : Arena α) : FrameId → Prop where
  | needed {id : FrameId} (hneeded : a.isNeeded id = true) : Reachable a id
  | around {id outer : FrameId} {frame : Frame α} (hid : Reachable a id)
      (hframe : a.frame? id = some frame) (houter : frame.outer = some outer)
      (hthere : (a.frame? outer).isSome) : Reachable a outer

theorem Reachable.isSome {id : FrameId} (hid : a.Reachable id) :
    (a.frame? id).isSome := by
  cases hid with
  | needed hneeded =>
    cases hframe : a.frame? id with
    | none => simp [isNeeded, hframe] at hneeded
    | some frame => rfl
  | around _ _ _ hthere => exact hthere

theorem reachable_of_running {id : FrameId} (hrunning : a.Running id) :
    a.Reachable id :=
  .needed (isNeeded_of_running hrunning)

theorem Tidy.reachable_root (htidy : a.Tidy) : a.Reachable root :=
  reachable_of_running htidy.root_running

/-! ### A sweep keeps what can be reached -/

/-- The frame around a marked one is marked, if there is one. -/
def MarksSpread (a : Arena α) (marks : Array Bool) : Prop :=
  ∀ inner frame outer, marks.getD inner false = true →
    a.frame? inner = some frame → frame.outer = some outer →
    (a.frame? outer).isSome → marks.getD outer false = true

theorem getD_setIfInBounds_cases {marks : Array Bool} {slot id : FrameId}
    (hmark : (marks.setIfInBounds slot true).getD id false = true) :
    id = slot ∨ marks.getD id false = true := by
  by_cases hid : id = slot
  · exact Or.inl hid
  · right
    by_cases hsize : id < marks.size
    · simpa [Array.getD, hsize, Ne.symm hid] using hmark
    · simp [Array.getD, hsize] at hmark

/-- The same, but for some frames and the ones around them. -/
def MarksSpreadBut (a : Arena α) (but : FrameId → FrameId → Prop) (marks : Array Bool) :
    Prop :=
  ∀ inner frame outer, marks.getD inner false = true →
    a.frame? inner = some frame → frame.outer = some outer →
    (a.frame? outer).isSome → marks.getD outer false = true ∨ but inner outer

theorem MarksSpread.but {marks : Array Bool} (hspread : MarksSpread a marks)
    (but : FrameId → FrameId → Prop) : MarksSpreadBut a but marks :=
  fun inner frame outer hinner hframe houter hthere =>
    Or.inl (hspread inner frame outer hinner hframe houter hthere)

/-- A walk marks the frame where it stands.  What is around that one is still to be
marked. -/
theorem MarksSpreadBut.setIfInBounds {but : FrameId → FrameId → Prop}
    {marks : Array Bool} {id : FrameId} (hspread : MarksSpreadBut a but marks)
    (hsize : marks.size = a.frames.size)
    (hbut : ∀ inner outer, but inner outer → inner = id ∨ outer = id) :
    MarksSpreadBut a (fun inner _ => inner = id) (marks.setIfInBounds id true) := by
  intro inner frame outer hinner hframe houter hthere
  rcases getD_setIfInBounds_cases hinner with rfl | hinner
  · exact Or.inr rfl
  · rcases hspread inner frame outer hinner hframe houter hthere with hmark | hexempt
    · exact Or.inl (getD_setIfInBounds_of_getD hmark)
    · rcases hbut inner outer hexempt with rfl | rfl
      · exact Or.inr rfl
      · obtain ⟨outerFrame, houterFrame⟩ := Option.isSome_iff_exists.mp hthere
        exact Or.inl (getD_setIfInBounds_self (hsize ▸ lt_size_of_frame? houterFrame))

theorem MarksSpreadBut.last {marks : Array Bool} {id : FrameId}
    (hspread : MarksSpreadBut a (fun inner _ => inner = id) marks)
    (hlast : (a.frame? id).bind (·.outer) = none) : MarksSpread a marks := by
  intro inner frame outer hinner hframe houter hthere
  rcases hspread inner frame outer hinner hframe houter hthere with hmark | rfl
  · exact hmark
  · rw [hframe, Option.bind_some, houter] at hlast
    cases hlast

theorem MarksSpreadBut.next {marks : Array Bool} {id next : FrameId}
    (hspread : MarksSpreadBut a (fun inner _ => inner = id) marks)
    (hnext : (a.frame? id).bind (·.outer) = some next) :
    MarksSpreadBut a (fun _ outer => outer = next) marks := by
  intro inner frame outer hinner hframe houter hthere
  refine (hspread inner frame outer hinner hframe houter hthere).imp_right ?_
  rintro rfl
  rw [hframe, Option.bind_some, houter] at hnext
  exact Option.some.inj hnext

/-- A walk that comes to a marked frame changes nothing. -/
theorem MarksSpread.markWithin {marks : Array Bool} (hspread : MarksSpread a marks)
    (hsize : marks.size = a.frames.size) (start : FrameId) (n : Nat) {id : FrameId}
    (hid : ∀ frame, a.frame? id = some frame → marks.getD id false = true) :
    MarksSpread a (Arena.markWithin a start n id marks) := by
  induction n generalizing id marks with
  | zero => exact hspread
  | succ n ih =>
    unfold Arena.markWithin
    split
    · exact hspread
    · cases hlast : (a.frame? id).bind (·.outer) with
      | none =>
        have hmarked : MarksSpreadBut a (fun inner _ => inner = id)
            (marks.setIfInBounds id true) :=
          (hspread.but fun _ _ => False).setIfInBounds hsize fun _ _ => False.elim
        exact hmarked.last hlast
      | some outer =>
        obtain ⟨frame, hframe, houter⟩ := Option.bind_eq_some_iff.mp hlast
        have hmark := hid frame hframe
        have hspread' : MarksSpread a (marks.setIfInBounds id true) := by
          intro inner innerFrame outer hinner hinnerFrame houter hthere
          refine getD_setIfInBounds_of_getD ?_
          rcases getD_setIfInBounds_cases hinner with rfl | hinner
          · exact hspread _ innerFrame outer hmark hinnerFrame houter hthere
          · exact hspread inner innerFrame outer hinner hinnerFrame houter hthere
        refine ih hspread' (by simpa using hsize) fun outerFrame houterFrame => ?_
        exact hspread' id frame outer (getD_setIfInBounds_of_getD hmark) hframe houter
          (by rw [houterFrame]; rfl)

/-- The slots that have no mark yet. -/
def unmarked (a : Arena α) (marks : Array Bool) : Finset FrameId :=
  (Finset.range a.frames.size).filter fun id => marks.getD id false = false

theorem unmarked_setIfInBounds {marks : Array Bool} {id : FrameId}
    (hsize : marks.size = a.frames.size) (hid : id < a.frames.size)
    (hmark : marks.getD id false = false) :
    (a.unmarked (marks.setIfInBounds id true)).card < (a.unmarked marks).card := by
  refine Finset.card_lt_card ⟨fun other hother => ?_, fun hsub => ?_⟩
  · obtain ⟨hother, hfalse⟩ := Finset.mem_filter.mp hother
    refine Finset.mem_filter.mpr ⟨hother, ?_⟩
    by_contra hmarked
    rw [Bool.not_eq_false] at hmarked
    rw [getD_setIfInBounds_of_getD hmarked] at hfalse
    cases hfalse
  · have hself := hsub (Finset.mem_filter.mpr ⟨Finset.mem_range.mpr hid, hmark⟩)
    have hfalse := (Finset.mem_filter.mp hself).2
    rw [getD_setIfInBounds_self (hsize ▸ hid)] at hfalse
    cases hfalse

/-- While a walk goes on, what is around a marked frame fails to be marked only where
the walk stands.  Each step marks one more slot, so the walk comes to its end. -/
theorem markWithin_spread {start : FrameId} {n : Nat} {id : FrameId}
    {marks : Array Bool} (hsize : marks.size = a.frames.size)
    (hn : (a.unmarked marks).card < n)
    (hspread : MarksSpreadBut a (fun _ outer => outer = id) marks) :
    MarksSpread a (markWithin a start n id marks) := by
  induction n generalizing id marks with
  | zero => exact absurd hn (Nat.not_lt_zero _)
  | succ n ih =>
    cases hmark : marks.getD id false with
    | true =>
      have hall : MarksSpread a marks := by
        intro inner frame outer hinner hframe houter hthere
        rcases hspread inner frame outer hinner hframe houter hthere with
          hmarked | rfl
        · exact hmarked
        · exact hmark
      exact hall.markWithin hsize start _ fun _ _ => hmark
    | false =>
      have hmarked := hspread.setIfInBounds hsize fun _ _ => Or.inr
      unfold markWithin
      rw [hmark, Bool.false_and, if_neg Bool.false_ne_true]
      cases hlast : (a.frame? id).bind (·.outer) with
      | none => exact hmarked.last hlast
      | some outer =>
        obtain ⟨frame, hframe, -⟩ := Option.bind_eq_some_iff.mp hlast
        have hfewer := unmarked_setIfInBounds hsize (lt_size_of_frame? hframe) hmark
        exact ih (by simpa using hsize) (by omega) (hmarked.next hlast)

theorem card_unmarked_lt {marks : Array Bool} {id : FrameId}
    (hid : id < a.frames.size) (hmark : marks.getD id false = true) :
    (a.unmarked marks).card < a.frames.size := by
  have hsub : a.unmarked marks ⊆ (Finset.range a.frames.size).erase id := by
    intro other hother
    obtain ⟨hrange, hfalse⟩ := Finset.mem_filter.mp hother
    refine Finset.mem_erase.mpr ⟨?_, hrange⟩
    rintro rfl
    rw [hmark] at hfalse
    cases hfalse
  have hcard := Finset.card_le_card hsub
  rw [Finset.card_erase_of_mem (Finset.mem_range.mpr hid), Finset.card_range] at hcard
  exact Nat.lt_of_le_of_lt hcard (Nat.sub_one_lt_of_lt hid)

/-- A walk from a frame on marks all that is around it. -/
theorem markWithin_start_spread {start : FrameId} {marks : Array Bool}
    (hsize : marks.size = a.frames.size)
    (hspread : MarksSpreadBut a (fun inner _ => inner = start) marks) :
    MarksSpread a (markWithin a start (a.frames.size + 1) start marks) := by
  have hmarked := hspread.setIfInBounds hsize fun _ _ => Or.inl
  unfold markWithin
  rw [bne_self_eq_false, Bool.and_false, if_neg Bool.false_ne_true]
  cases hlast : (a.frame? start).bind (·.outer) with
  | none => exact hmarked.last hlast
  | some outer =>
    obtain ⟨frame, hframe, -⟩ := Option.bind_eq_some_iff.mp hlast
    have hstart : start < a.frames.size := lt_size_of_frame? hframe
    refine markWithin_spread (by simpa using hsize) ?_ (hmarked.next hlast)
    exact card_unmarked_lt hstart (getD_setIfInBounds_self (hsize ▸ hstart))

theorem MarksSpread.marksAfter {marks : Array Bool} (hspread : MarksSpread a marks)
    (hsize : marks.size = a.frames.size) (slots : List FrameId) :
    MarksSpread a (a.marksAfter slots marks) := by
  induction slots generalizing marks with
  | nil => exact hspread
  | cons slot slots ih =>
    exact ih (markWithin_start_spread hsize (hspread.but _))
      (by rw [size_markWithin, hsize])

/-- The root comes first, so all walks but the first one start with marks that are
spread. -/
theorem Tidy.marks_spread (htidy : a.Tidy) : MarksSpread a a.marks := by
  obtain ⟨rootFrame, hrootFrame, -⟩ := htidy.root_running
  have hroot : root < a.frames.size := lt_size_of_frame? hrootFrame
  obtain ⟨size, hsize⟩ := Nat.exists_eq_succ_of_ne_zero (Nat.ne_of_gt hroot)
  have hneeded : a.isNeeded 0 = true := isNeeded_of_running htidy.root_running
  rw [marks_eq_marksAfter, hsize, List.range_succ_eq_map,
    List.filter_cons_of_pos hneeded]
  refine (markWithin_start_spread size_rootMark ?_).marksAfter
    (by rw [size_markWithin, size_rootMark]) _
  intro inner frame outer hinner _ _ _
  rcases getD_setIfInBounds_cases hinner with rfl | hinner
  · exact Or.inr rfl
  · by_cases hinnerSize : inner < a.frames.size <;>
      simp [Array.getD, hinnerSize] at hinner

theorem Tidy.marks_of_reachable (htidy : a.Tidy) {id : FrameId}
    (hid : a.Reachable id) : a.marks.getD id false = true := by
  induction hid with
  | needed hneeded => exact marks_of_isNeeded hneeded
  | around _ hframe houter hthere ih =>
    exact htidy.marks_spread _ _ _ ih hframe houter hthere

/-! ### What is needed stays needed -/

theorem isHeld_mono {old new : Frame α} (hhold : ∀ hold, old.hold = some hold →
      new.hold = some hold)
    (howners : ∀ hold, a.holds.getD hold 0 ≤ b.holds.getD hold 0)
    (hheld : a.isHeld old = true) : b.isHeld new = true := by
  cases hold : old.hold with
  | none => simp [isHeld, hold] at hheld
  | some hold' =>
    have hlt : 0 < a.holds.getD hold' 0 := by simpa [isHeld, hold] using hheld
    have hlt' := Nat.lt_of_lt_of_le hlt (howners hold')
    simpa [isHeld, hhold hold' hold] using hlt'

theorem isNeeded_mono {id : FrameId} {old new : Frame α}
    (hold : a.frame? id = some old) (hnew : b.frame? id = some new)
    (hexited : new.exited = old.exited)
    (hheld : a.isHeld old = true → b.isHeld new = true)
    (hneeded : a.isNeeded id = true) : b.isNeeded id = true := by
  simp only [isNeeded, hold, Option.any_some, Bool.or_eq_true, Bool.not_eq_true']
    at hneeded
  simp only [isNeeded, hnew, Option.any_some, Bool.or_eq_true, Bool.not_eq_true',
    hexited]
  exact hneeded.imp_right hheld

theorem exists_of_isNeeded {id : FrameId} (hneeded : a.isNeeded id = true) :
    ∃ frame, a.frame? id = some frame :=
  Option.isSome_iff_exists.mp (Reachable.needed hneeded).isSome

theorem getD_holds_claim (hold other : HoldId) :
    a.holds.getD other 0 ≤ (a.claim hold).holds.getD other 0 := by
  by_cases hsize : other < a.holds.size
  · by_cases heq : hold = other <;>
      simp [claim, Array.getD, hsize, Array.getElem_modify, heq]
  · simp [Array.getD, hsize]

theorem getD_holds_push (holds : Array Nat) (other : HoldId) :
    holds.getD other 0 ≤ (holds.push 1).getD other 0 := by
  by_cases hsize : other < holds.size
  · simp [Array.getD, hsize, Array.getElem_push, Nat.lt_succ_of_lt hsize]
  · simp [Array.getD, hsize]

/-- A claim to a frame leaves every frame inside the same one and on its hold. -/
theorem frame?_claimFrame_kept (slot : FrameId) {id : FrameId} {old : Frame α}
    (hold : a.frame? id = some old) :
    ∃ new, (a.claimFrame slot).2.frame? id = some new ∧ new.outer = old.outer ∧
      new.exited = old.exited ∧ new.bindings = old.bindings ∧
      ∀ hold, old.hold = some hold → new.hold = some hold := by
  unfold claimFrame
  split
  · exact ⟨old, hold, rfl, rfl, rfl, fun _ h => h⟩
  · next hnone =>
    rw [frame?_modifyFrame]
    split
    · next heq =>
      subst heq
      refine ⟨{ old with hold := some a.holds.size }, ?_, rfl, rfl, rfl, ?_⟩
      · change Option.map _ (a.frame? id) = _
        rw [hold]
        rfl
      · rw [hold, Option.map_some, Option.some.injEq] at hnone
        intro other hother
        rw [hnone] at hother
        cases hother
    · exact ⟨old, hold, rfl, rfl, rfl, fun _ h => h⟩
  · exact ⟨old, hold, rfl, rfl, rfl, fun _ h => h⟩

theorem frame?_pin_kept (slot : FrameId) {id : FrameId} {old : Frame α}
    (hold : a.frame? id = some old) :
    ∃ new, (a.pin slot).2.frame? id = some new ∧ new.outer = old.outer ∧
      new.exited = old.exited ∧ new.bindings = old.bindings ∧
      ∀ hold, old.hold = some hold → new.hold = some hold := by
  obtain ⟨claimed, hclaimed, houter, hexited, hbindings, hkept⟩ :=
    frame?_claimFrame_kept slot hold
  obtain ⟨new, hnew, hsameBindings, hsameOuter, hsameExited, hsameHold⟩ :=
    exists_frame?_pinWithin (a.claimFrame slot).2.frames.size slot hclaimed
  exact ⟨new, hnew, hsameOuter.trans houter, hsameExited.trans hexited,
    hsameBindings.trans hbindings, fun other h => hsameHold.trans (hkept other h)⟩

/-! ### Owners that stay -/

/-- The arena when its holds have these owners. -/
def owning (a : Arena α) (owners : Array Nat) : Arena α := { a with holds := owners }

/-- Each hold has at least so many owners. -/
def Owned (a : Arena α) (owners : Array Nat) : Prop :=
  ∀ hold, owners.getD hold 0 ≤ a.holds.getD hold 0

variable {owners : Array Nat}

theorem owned_self (a : Arena α) : a.Owned a.holds := fun _ => Nat.le_refl _

theorem Owned.of_holds_eq (howned : a.Owned owners) (hholds : b.holds = a.holds) :
    b.Owned owners := by
  intro hold
  rw [hholds]
  exact howned hold

/-- Pinning a frame adds an owner. -/
theorem Owned.pin (howned : a.Owned owners) (slot : FrameId) :
    (a.pin slot).2.Owned owners := by
  have hclaimed : (a.claimFrame slot).2.Owned owners := by
    intro hold
    refine Nat.le_trans (howned hold) ?_
    unfold claimFrame
    split
    · exact getD_holds_claim _ hold
    · exact getD_holds_push a.holds hold
    · exact getD_holds_push a.holds hold
  exact hclaimed.of_holds_eq (holds_pinWithin _ _ _)

theorem Owned.drop (howned : a.Owned owners) {hold : HoldId}
    (hmore : owners.getD hold 0 < a.holds.getD hold 0) : (a.drop hold).Owned owners := by
  intro other
  have hother := howned other
  by_cases hsize : other < a.holds.size
  · by_cases heq : hold = other
    · subst heq
      simp only [Arena.drop, Array.getD_eq_getD_getElem?, Array.getElem?_modify] at hmore ⊢
      simp [hsize] at hmore ⊢
      omega
    · simpa [Arena.drop, Array.getD_eq_getD_getElem?, Array.getElem?_modify, heq] using hother
  · simpa [Arena.drop, Array.getD, hsize] using hother

theorem Owned.child (howned : a.Owned owners) (outer : FrameId) :
    (a.child outer).2.Owned owners := by
  unfold Arena.child
  split <;> exact howned

theorem holds_update (frame : FrameId) (name : String) (value : α) :
    (a.update frame name value).2.holds = a.holds := by
  unfold update
  split <;> rfl

theorem holds_release (a : Arena α) (slot : FrameId) : (a.release slot).holds = a.holds := by
  rcases release_cases a slot with ⟨hsame, -⟩ | ⟨frame, -, -, -, hfreed⟩ |
    ⟨frame, -, -, -, -, hexit | hexit⟩
  · rw [hsame]
  · rw [hfreed]
    rfl
  · rw [hexit]
    rfl
  · rw [hexit, holds_sweep]
    rfl

theorem isNeeded_of_owning (howned : a.Owned owners) {id : FrameId}
    (hneeded : (a.owning owners).isNeeded id = true) : a.isNeeded id = true := by
  obtain ⟨frame, hframe⟩ := exists_of_isNeeded hneeded
  exact isNeeded_mono hframe hframe rfl (isHeld_mono (fun _ h => h) howned) hneeded

theorem Reachable.of_owning (howned : a.Owned owners) {id : FrameId}
    (hid : (a.owning owners).Reachable id) : a.Reachable id := by
  induction hid with
  | needed hneeded => exact .needed (isNeeded_of_owning howned hneeded)
  | around _ hframe houter hthere ih => exact .around ih hframe houter hthere

theorem Tidy.owning (htidy : a.Tidy) (owners : Array Nat) : (a.owning owners).Tidy :=
  htidy.quiet (quiet_of_frames_eq rfl rfl)

theorem child_owning (a : Arena α) (outer : FrameId) :
    (a.owning owners).child outer =
      ((a.child outer).1, (a.child outer).2.owning owners) := by
  unfold Arena.child Arena.owning
  dsimp only
  split <;> rfl

/-! ### From one arena to a later one -/

/-- What is needed stays needed, and what can be reached is still there, inside the
same frame.  `R` says how the bindings of each of these frames have fared. -/
structure Carries (R : FrameId → Bindings α → Bindings α → Prop)
    (a b : Arena α) : Prop where
  size_le : a.frames.size ≤ b.frames.size
  needed : ∀ id, a.isNeeded id = true → b.isNeeded id = true
  frame : ∀ id old, a.Reachable id → a.frame? id = some old →
    ∃ new, b.frame? id = some new ∧ new.outer = old.outer ∧
      R id old.bindings new.bindings

section

variable {R R' R'' : FrameId → Bindings α → Bindings α → Prop}

theorem Carries.reachable (hcarries : Carries R a b) {id : FrameId}
    (hid : a.Reachable id) : b.Reachable id := by
  induction hid with
  | needed hneeded => exact .needed (hcarries.needed _ hneeded)
  | @around id outer frame hid hframe houter hthere ih =>
    obtain ⟨new, hnew, hnewOuter, -⟩ := hcarries.frame id frame hid hframe
    obtain ⟨outerFrame, houterFrame⟩ := Option.isSome_iff_exists.mp hthere
    obtain ⟨newOuter, hnewOuterFrame, -⟩ := hcarries.frame outer outerFrame
      (.around hid hframe houter hthere) houterFrame
    exact .around ih hnew (hnewOuter.trans houter) (by rw [hnewOuterFrame]; rfl)

theorem Carries.refl (hR : ∀ id bindings, R id bindings bindings) (a : Arena α) :
    Carries R a a where
  size_le := Nat.le_refl _
  needed := fun _ hneeded => hneeded
  frame := fun id old _ hold => ⟨old, hold, rfl, hR id old.bindings⟩

theorem Carries.trans
    (hR : ∀ id xs ys zs, a.Reachable id → R id xs ys → R' id ys zs → R'' id xs zs)
    (hab : Carries R a b) (hbc : Carries R' b c) : Carries R'' a c where
  size_le := Nat.le_trans hab.size_le hbc.size_le
  needed := fun id hneeded => hbc.needed id (hab.needed id hneeded)
  frame := by
    intro id old hid hold
    obtain ⟨middle, hmiddle, houter, hfirst⟩ := hab.frame id old hid hold
    obtain ⟨new, hnew, houter', hsecond⟩ :=
      hbc.frame id middle (hab.reachable hid) hmiddle
    exact ⟨new, hnew, houter'.trans houter, hR _ _ _ _ hid hfirst hsecond⟩

theorem Carries.mono (hR : ∀ id xs ys, a.Reachable id → R id xs ys → R' id xs ys)
    (hcarries : Carries R a b) : Carries R' a b where
  size_le := hcarries.size_le
  needed := hcarries.needed
  frame := by
    intro id old hid hold
    obtain ⟨new, hnew, houter, hbindings⟩ := hcarries.frame id old hid hold
    exact ⟨new, hnew, houter, hR _ _ _ hid hbindings⟩

/-- A change to the bindings of one frame. -/
theorem carries_modifyBindings (hR : ∀ id bindings, R id bindings bindings)
    (slot : FrameId) (f : Bindings α → Bindings α)
    (hf : ∀ frame, a.frame? slot = some frame → R slot frame.bindings
      (f frame.bindings)) :
    Carries R a (a.modifyFrame slot fun frame =>
      { frame with bindings := f frame.bindings }) where
  size_le := Nat.le_of_eq (size_modifyFrame slot _).symm
  needed := by
    intro id hneeded
    obtain ⟨old, hold⟩ := exists_of_isNeeded hneeded
    by_cases hid : id = slot
    · subst hid
      have hnew : (a.modifyFrame id fun frame =>
          { frame with bindings := f frame.bindings }).frame? id =
            some { old with bindings := f old.bindings } := by
        rw [frame?_modifyFrame_self, hold]
        rfl
      exact isNeeded_mono hold hnew rfl (fun hheld => hheld) hneeded
    · exact isNeeded_mono hold (by rw [frame?_modifyFrame, if_neg hid, hold]) rfl
        (fun hheld => hheld) hneeded
  frame := by
    intro id old _ hold
    rw [frame?_modifyFrame]
    split
    · next heq =>
      subst heq
      exact ⟨{ old with bindings := f old.bindings }, by rw [hold]; rfl, rfl,
        hf old hold⟩
    · exact ⟨old, hold, rfl, hR id old.bindings⟩

/-- Pinning takes nothing away, whatever owners the holds have. -/
theorem carries_pin (hR : ∀ id bindings, R id bindings bindings) (slot : FrameId) :
    Carries R (a.owning owners) ((a.pin slot).2.owning owners) where
  size_le := Nat.le_of_eq (quiet_pin (a := a) slot).size.symm
  needed := by
    intro id hneeded
    obtain ⟨old, hold⟩ := exists_of_isNeeded hneeded
    obtain ⟨new, hnew, -, hexited, -, hkept⟩ := frame?_pin_kept (a := a) slot hold
    exact isNeeded_mono hold hnew hexited
      (isHeld_mono hkept fun _ => Nat.le_refl _) hneeded
  frame := by
    intro id old _ hold
    obtain ⟨new, hnew, houter, -, hbindings, -⟩ := frame?_pin_kept (a := a) slot hold
    exact ⟨new, hnew, houter, hbindings ▸ hR id old.bindings⟩

theorem Tidy.carries_child (htidy : a.Tidy)
    (hR : ∀ id bindings, R id bindings bindings) (outer : FrameId) :
    Carries R a (a.child outer).2 := by
  have hkept : ∀ id old, a.frame? id = some old →
      (a.child outer).2.frame? id = some old := by
    intro id old hold
    rw [htidy.frame?_child, if_neg, hold]
    rintro rfl
    rw [htidy.frame?_child_slot] at hold
    cases hold
  refine ⟨?_, fun id hneeded => ?_, fun id old _ hold => ?_⟩
  · unfold Arena.child
    split
    · simp
    · simp
  · obtain ⟨old, hold⟩ := exists_of_isNeeded hneeded
    refine isNeeded_mono hold (hkept id old hold) rfl ?_ hneeded
    unfold Arena.child
    split <;> exact fun hheld => hheld
  · exact ⟨old, hkept id old hold, rfl, hR id old.bindings⟩

/-- A sweep keeps what the owners need, and whatever else is needed. -/
theorem Carries.sweep (hcarries : Carries R a (b.owning owners)) (htidy : b.Tidy)
    (howned : b.Owned owners) : Carries R a (b.sweep.owning owners) where
  size_le := by
    change _ ≤ b.sweep.frames.size
    rw [size_sweep]
    exact hcarries.size_le
  needed := by
    intro id hneeded
    have hneeded' := hcarries.needed id hneeded
    obtain ⟨frame, hframe⟩ := exists_of_isNeeded hneeded'
    have hmark := htidy.marks_of_reachable (.needed (isNeeded_of_owning howned hneeded'))
    exact isNeeded_mono hframe ((frame?_sweep_of_marks hmark).trans hframe) rfl
      (fun hheld => hheld) hneeded'
  frame := by
    intro id old hid hold
    obtain ⟨new, hnew, hkept⟩ := hcarries.frame id old hid hold
    have hmark := htidy.marks_of_reachable ((hcarries.reachable hid).of_owning howned)
    exact ⟨new, (frame?_sweep_of_marks hmark).trans hnew, hkept⟩

/-- The end of a frame that was not there takes nothing away. -/
theorem Carries.release (hcarries : Carries R a (b.owning owners)) (htidy : b.Tidy)
    (howned : b.Owned owners) {slot : FrameId} (hslot : a.frame? slot = none) :
    Carries R a ((b.release slot).owning owners) := by
  -- Whatever happens to the frame in the slot, the others stay.
  have hothers : ∀ d : Arena α, (∀ id, id ≠ slot → d.frame? id = b.frame? id) →
      d.frames.size = b.frames.size → Carries R a (d.owning owners) := by
    intro d hframes hsize
    have hne : ∀ id old, a.frame? id = some old → id ≠ slot := by
      rintro id old hold rfl
      rw [hslot] at hold
      cases hold
    refine ⟨hsize ▸ hcarries.size_le, fun id hneeded => ?_, fun id old hid hold => ?_⟩
    · obtain ⟨old, hold⟩ := exists_of_isNeeded hneeded
      obtain ⟨new, hnew⟩ := exists_of_isNeeded (hcarries.needed id hneeded)
      exact isNeeded_mono hnew ((hframes id (hne id old hold)).trans hnew) rfl
        (fun hheld => hheld) (hcarries.needed id hneeded)
    · obtain ⟨new, hnew, hkept⟩ := hcarries.frame id old hid hold
      exact ⟨new, (hframes id (hne id old hold)).trans hnew, hkept⟩
  rcases release_cases b slot with ⟨hsame, -⟩ | ⟨frame, -, -, -, hfreed⟩ |
    ⟨frame, hroot, hframe, hpinned, -, hexit⟩
  · rw [hsame]
    exact hcarries
  · rw [hfreed]
    exact hothers _ (fun id hne => by rw [frame?_freeSlot, if_neg hne])
      (size_freeSlot slot)
  · have hmarked : Carries R a ((b.markExited slot).owning owners) :=
      hothers _ (fun id hne => by rw [frame?_markExited, if_neg hne])
        (size_modifyFrame slot _)
    rcases hexit with hexit | hexit
    · rw [hexit]
      exact hmarked
    · rw [hexit]
      exact hmarked.sweep (htidy.markExited hroot hframe hpinned) howned

end

end Script.Scope.Arena
