import Script.Proofs.Scope.Slots
import Script.Proofs.Scope.Ledger
import Mathlib.Data.Finset.Card

/-!
# The backlog of exited frames

An arena counts the frames that have exited and are still there, and sweeps when
there are too many of them.  The count is right after every call a client makes,
whatever frames and holds it names: ended frames, frames whose slot has gone to
somebody else, or frames that were never made.  So a sweep never frees more
frames than were counted, and the backlog stays below twice of what the last
sweep has left.
-/

namespace Script.Scope

variable {α : Type}

namespace Arena

variable {a b : Arena α}

/-- A lookup from a frame finds the constants of the frame. -/
theorem Tidy.get?_of_isLocalConstant (htidy : a.Tidy) {id : FrameId}
    {name : String} (hconstant : a.isLocalConstant id name = true) :
    ∃ frame value, a.frame? id = some frame ∧
      frame.bindings.values[name]? = some value ∧ a.get? id name = some value := by
  rw [isLocalConstant, Option.any_eq_true] at hconstant
  obtain ⟨frame, hframe, hconstant⟩ := hconstant
  obtain ⟨value, hvalue⟩ := htidy.constants_bound id frame hframe name hconstant
  refine ⟨frame, value, hframe, hvalue, ?_⟩
  have hsize := lt_size_of_frame? hframe
  obtain ⟨n, hn⟩ := Nat.exists_eq_succ_of_ne_zero (Nat.ne_zero_of_lt hsize)
  rw [get?, resolve?, hn, resolveWithin, hframe]
  simp only [find?, hvalue, Option.map_some]

/-! ### Exited frames -/

/-- The slots of the frames that have exited and are still there. -/
def exitedSlots (a : Arena α) : Finset FrameId :=
  {slot ∈ Finset.range a.frames.size | (a.frame? slot).any (·.exited)}

theorem mem_exitedSlots {slot : FrameId} :
    slot ∈ a.exitedSlots ↔
      ∃ frame, a.frame? slot = some frame ∧ frame.exited = true := by
  rw [exitedSlots, Finset.mem_filter, Finset.mem_range, Option.any_eq_true]
  constructor
  · exact And.right
  · rintro ⟨frame, hframe, hexited⟩
    exact ⟨lt_size_of_frame? hframe, frame, hframe, hexited⟩

theorem Quiet.exitedSlots_eq (hquiet : Quiet a b) :
    b.exitedSlots = a.exitedSlots := by
  ext slot
  rw [mem_exitedSlots, mem_exitedSlots]
  constructor
  · rintro ⟨new, hnew, hexited⟩
    obtain ⟨old, hold, -, hsame, -⟩ := hquiet.frame_before hnew
    exact ⟨old, hold, hsame ▸ hexited⟩
  · rintro ⟨old, hold, hexited⟩
    obtain ⟨new, hnew, -, hsame, -⟩ := hquiet.frame slot old hold
    exact ⟨new, hnew, hsame.trans hexited⟩

theorem Tidy.exitedSlots_child (htidy : a.Tidy) (outer : FrameId) :
    (a.child outer).2.exitedSlots = a.exitedSlots := by
  have hslot := htidy.frame?_child_slot outer
  ext slot
  rw [mem_exitedSlots, mem_exitedSlots, htidy.frame?_child]
  split
  · next heq => simp [heq, hslot]
  · rfl

/-- Freeing a frame that has not exited leaves the backlog as it is. -/
theorem exitedSlots_freeSlot {slot : FrameId} (hslot : slot ∉ a.exitedSlots) :
    (a.freeSlot slot).exitedSlots = a.exitedSlots := by
  ext id
  by_cases hid : id = slot
  · subst hid
    simp [hslot, mem_exitedSlots, frame?_freeSlot]
  · rw [mem_exitedSlots, mem_exitedSlots, frame?_freeSlot, if_neg hid]

theorem exitedSlots_markExited {slot : FrameId} {frame : Frame α}
    (hframe : a.frame? slot = some frame) :
    (a.markExited slot).exitedSlots = insert slot a.exitedSlots := by
  ext id
  rw [mem_exitedSlots, Finset.mem_insert, mem_exitedSlots, frame?_markExited]
  by_cases hid : id = slot
  · subst hid
    simp [hframe]
  · rw [if_neg hid]
    simp [hid]

/-- Only exited frames are swept. -/
theorem mem_exitedSlots_of_mem_dead {slot : FrameId} (hdead : slot ∈ a.dead) :
    slot ∈ a.exitedSlots := by
  obtain ⟨hunmarked, hsome⟩ := mem_dead.mp hdead
  obtain ⟨frame, hframe⟩ := Option.isSome_iff_exists.mp hsome
  rw [mem_exitedSlots]
  refine ⟨frame, hframe, ?_⟩
  by_contra hexited
  rw [Bool.not_eq_true] at hexited
  have hmark := marks_of_isNeeded (isNeeded_of_running ⟨frame, hframe, hexited⟩)
  rw [hunmarked] at hmark
  cases hmark

theorem exitedSlots_sweep :
    a.sweep.exitedSlots = a.exitedSlots \ a.dead.toFinset := by
  ext slot
  rw [Finset.mem_sdiff, List.mem_toFinset, mem_exitedSlots, mem_exitedSlots,
    frame?_sweep, mem_dead]
  cases hmark : a.marks.getD slot false <;> cases a.frame? slot <;> simp

theorem card_exitedSlots_sweep :
    a.sweep.exitedSlots.card + a.dead.length = a.exitedSlots.card := by
  have hsubset : a.dead.toFinset ⊆ a.exitedSlots := fun slot hslot =>
    mem_exitedSlots_of_mem_dead (List.mem_toFinset.mp hslot)
  rw [exitedSlots_sweep, ← List.toFinset_card_of_nodup nodup_dead]
  exact Finset.card_sdiff_add_card_eq_card hsubset

/-! ### The account of the exited frames -/

/-- What is right of an arena between any two steps, also when a frame has just
exited and the sweep that it brings on has not begun. -/
structure Counted (a : Arena α) : Prop extends Tidy a where
  exited_eq : a.exited = a.exitedSlots.card

/-- What is right of an arena after every call. -/
structure Settled (a : Arena α) : Prop extends Counted a where
  minimum_le : minimumBacklog ≤ a.sweepAt
  exited_lt : a.exited < a.sweepAt

theorem settled_new : (new : Arena α).Settled where
  toTidy := tidy_new
  exited_eq := rfl
  minimum_le := Nat.le_refl _
  exited_lt := by
    change 0 < minimumBacklog
    decide

/-- A sweep frees no more frames than were counted. -/
theorem Counted.length_dead_le (hcounted : a.Counted) :
    a.dead.length ≤ a.exited := by
  rw [hcounted.exited_eq, ← card_exitedSlots_sweep]
  exact Nat.le_add_left _ _

/-- A sweep settles an arena, however many frames have exited. -/
theorem Counted.settled_sweep (hcounted : a.Counted) : a.sweep.Settled where
  toTidy := hcounted.toTidy.sweep
  exited_eq := by
    have hcard := card_exitedSlots_sweep (a := a)
    have hcount : a.sweep.exited = a.exited - a.dead.length := rfl
    rw [hcount, hcounted.exited_eq]
    omega
  minimum_le := Nat.le_max_right _ _
  exited_lt := by
    have hsweepAt : a.sweep.sweepAt = max (a.sweep.exited * 2) minimumBacklog :=
      rfl
    rw [hsweepAt, minimumBacklog]
    omega

theorem Counted.markExited (hcounted : a.Counted) {id : FrameId}
    (hroot : id ≠ root) {frame : Frame α} (hframe : a.frame? id = some frame)
    (hpinned : frame.pinned = true) (hrunning : frame.exited = false) :
    (a.markExited id).Counted where
  toTidy := hcounted.toTidy.markExited hroot hframe hpinned
  exited_eq := by
    have hnew : id ∉ a.exitedSlots := by
      rw [mem_exitedSlots, hframe]
      simp [hrunning]
    have hcount : (a.markExited id).exited = a.exited + 1 := rfl
    rw [hcount, exitedSlots_markExited hframe, Finset.card_insert_of_notMem hnew,
      hcounted.exited_eq]

/-- A call that ends no frame. -/
theorem Settled.quiet (hsettled : a.Settled) (hquiet : Quiet a b)
    (hexited : b.exited = a.exited)
    (hsweepAt : b.sweepAt = a.sweepAt) : b.Settled where
  toTidy := hsettled.toTidy.quiet hquiet
  exited_eq := by rw [hexited, hsettled.exited_eq, hquiet.exitedSlots_eq]
  minimum_le := hsweepAt ▸ hsettled.minimum_le
  exited_lt := by rw [hexited, hsweepAt]; exact hsettled.exited_lt

theorem Settled.bind (hsettled : a.Settled) (id : FrameId) (b : Binding α) :
    (a.bind id b).Settled :=
  hsettled.quiet (quiet_bind id b) rfl rfl

theorem exited_update (id : FrameId) (name : String) (value : α) :
    (a.update id name value).2.exited = a.exited := by
  unfold Arena.update
  split <;> rfl

theorem sweepAt_update (id : FrameId) (name : String) (value : α) :
    (a.update id name value).2.sweepAt = a.sweepAt := by
  unfold Arena.update
  split <;> rfl

theorem Settled.update (hsettled : a.Settled) (id : FrameId) (name : String)
    (value : α) : (a.update id name value).2.Settled :=
  hsettled.quiet (quiet_update id name value) (exited_update id name value)
    (sweepAt_update id name value)

/-- Pinning neither counts frames nor says when to sweep. -/
theorem counters_pinWithin (n : Nat) (id : FrameId) (a : Arena α) :
    (pinWithin n id a).exited = a.exited ∧
      (pinWithin n id a).sweepAt = a.sweepAt := by
  induction n generalizing id a with
  | zero => exact ⟨rfl, rfl⟩
  | succ n ih =>
    unfold pinWithin
    split
    · exact ⟨rfl, rfl⟩
    · split
      · exact ⟨rfl, rfl⟩
      · dsimp only
        split
        · exact ⟨rfl, rfl⟩
        · exact ih _ _

theorem counters_claimFrame (id : FrameId) :
    (a.claimFrame id).2.exited = a.exited ∧
      (a.claimFrame id).2.sweepAt = a.sweepAt := by
  unfold claimFrame
  split <;> exact ⟨rfl, rfl⟩

theorem exited_pin (id : FrameId) : (a.pin id).2.exited = a.exited :=
  (counters_pinWithin _ id _).1.trans (counters_claimFrame id).1

theorem sweepAt_pin (id : FrameId) : (a.pin id).2.sweepAt = a.sweepAt :=
  (counters_pinWithin _ id _).2.trans (counters_claimFrame id).2

theorem Settled.pin (hsettled : a.Settled) (id : FrameId) :
    (a.pin id).2.Settled :=
  hsettled.quiet (quiet_pin id) (exited_pin id) (sweepAt_pin id)

/-- A new frame is counted nowhere. -/
theorem Settled.child (hsettled : a.Settled) (outer : FrameId) :
    (a.child outer).2.Settled ∧ (a.child outer).2.sweepAt = a.sweepAt := by
  have hexited : (a.child outer).2.exited = a.exited := by
    unfold Arena.child
    split <;> rfl
  have hsweepAt : (a.child outer).2.sweepAt = a.sweepAt := by
    unfold Arena.child
    split <;> rfl
  refine ⟨⟨⟨hsettled.toTidy.child outer, ?_⟩, ?_, ?_⟩, hsweepAt⟩
  · rw [hexited, hsettled.toTidy.exitedSlots_child]
    exact hsettled.exited_eq
  · rw [hsweepAt]
    exact hsettled.minimum_le
  · rw [hexited, hsweepAt]
    exact hsettled.exited_lt

/-- The arena that is swept when the block of a frame ends, if any is: the one
where the frame has exited. -/
def sweptByRelease? (a : Arena α) (id : FrameId) : Option (Arena α) :=
  let exits := (a.frame? id).any fun frame => frame.pinned && !frame.exited
  if id ≠ root ∧ exits ∧ a.sweepAt ≤ a.exited + 1 then some (a.markExited id)
  else none

/-- The end of a block sweeps an arena whose count is right, or leaves a settled
arena that sweeps no sooner and no later than before. -/
theorem Settled.release (hsettled : a.Settled) (id : FrameId) :
    (∃ b, a.sweptByRelease? id = some b ∧ b.Counted ∧ a.release id = b.sweep) ∨
    (a.sweptByRelease? id = none ∧ (a.release id).Settled ∧
      (a.release id).sweepAt = a.sweepAt) := by
  by_cases hroot : id = root
  · refine Or.inr ⟨by simp [sweptByRelease?, hroot], ?_⟩
    rw [Arena.release, if_pos hroot]
    exact ⟨hsettled, rfl⟩
  cases hframe : a.frame? id with
  | none =>
    refine Or.inr ⟨by simp [sweptByRelease?, hframe], ?_⟩
    rw [Arena.release, if_neg hroot, hframe]
    exact ⟨hsettled, rfl⟩
  | some frame =>
    cases hpinned : frame.pinned with
    | false =>
      have hreleased : a.release id = a.freeSlot id := by
        simp [Arena.release, hroot, hframe, hpinned]
      -- a frame that is not pinned has not exited
      have hrunning : id ∉ a.exitedSlots := by
        rw [mem_exitedSlots]
        rintro ⟨other, hother, hexited⟩
        have hsame := hsettled.exited_pinned id other hother hexited
        rw [hframe, Option.some.injEq] at hother
        subst hother
        simp [hpinned] at hsame
      refine Or.inr ⟨by simp [sweptByRelease?, hframe, hpinned], ?_, ?_⟩
      · refine ⟨⟨hsettled.toTidy.release id, ?_⟩, ?_, ?_⟩
        · rw [hreleased, exitedSlots_freeSlot hrunning]
          exact hsettled.exited_eq
        · rw [hreleased]
          exact hsettled.minimum_le
        · rw [hreleased]
          exact hsettled.exited_lt
      · rw [hreleased]
        rfl
    | true =>
      cases hexited : frame.exited with
      | true =>
        refine Or.inr ⟨by simp [sweptByRelease?, hframe, hexited], ?_⟩
        have hreleased : a.release id = a := by
          simp [Arena.release, hroot, hframe, hpinned, hexited]
        rw [hreleased]
        exact ⟨hsettled, rfl⟩
      | false =>
        have hcounted :=
          hsettled.toCounted.markExited hroot hframe hpinned hexited
        have hreleased : a.release id =
            if a.sweepAt ≤ a.exited + 1 then (a.markExited id).sweep
            else a.markExited id := by
          simp only [Arena.release, hroot, hframe, hpinned, hexited]
          rfl
        rw [hreleased]
        by_cases hfull : a.sweepAt ≤ a.exited + 1
        · refine Or.inl ⟨a.markExited id, ?_, hcounted, if_pos hfull⟩
          simp [sweptByRelease?, hframe, hpinned, hexited, hroot, hfull]
        · rw [if_neg hfull]
          refine Or.inr ⟨by simp [sweptByRelease?, hfull], ?_, rfl⟩
          exact ⟨hcounted, hsettled.minimum_le, Nat.lt_of_not_le hfull⟩

end Arena

/-! ### The backlog after every call -/

namespace Client

variable {c : Client α}

/-- The arena that a call sweeps, if it sweeps any. -/
def swept? (c : Client α) : Call α → Option (Arena α)
  | .release frame => c.arena.sweptByRelease? (c.slot frame)
  | .sweep => some c.arena
  | _ => none

/-- How many exited frames the last sweep of a sequence of calls has left;
`before` if none of the calls sweeps. -/
def retained (before : Nat) : Client α → List (Call α) → Nat
  | _, [] => before
  | c, call :: calls =>
    let left := (c.swept? call).elim before fun a => a.sweep.exited
    retained left (c.step recycling call).2 calls

/-- A call sweeps an arena whose count is right, or leaves a settled arena that
sweeps no sooner and no later than before. -/
theorem step_settled (hsettled : c.arena.Settled) (call : Call α) :
    (∃ a, c.swept? call = some a ∧ a.Counted ∧
      (c.step recycling call).2.arena = a.sweep) ∨
    (c.swept? call = none ∧ (c.step recycling call).2.arena.Settled ∧
      (c.step recycling call).2.arena.sweepAt = c.arena.sweepAt) := by
  cases call with
  | child outer =>
    have hchild := hsettled.child (c.slot outer)
    exact Or.inr ⟨rfl, hchild⟩
  | pin frame => exact Or.inr ⟨rfl, hsettled.pin _, Arena.sweepAt_pin _⟩
  | clone hold =>
    exact Or.inr ⟨rfl, hsettled.quiet (Arena.quiet_claim _) rfl rfl, rfl⟩
  | drop hold =>
    exact Or.inr ⟨rfl, hsettled.quiet (Arena.quiet_drop _) rfl rfl, rfl⟩
  | release frame => exact hsettled.release (c.slot frame)
  | sweep => exact Or.inl ⟨c.arena, rfl, hsettled.toCounted, rfl⟩
  | set frame name value => exact Or.inr ⟨rfl, hsettled.bind _ _, rfl⟩
  | setConstant frame name value => exact Or.inr ⟨rfl, hsettled.bind _ _, rfl⟩
  | update frame name value =>
    exact Or.inr ⟨rfl, hsettled.update _ _ _, Arena.sweepAt_update _ _ _⟩
  | get frame name => exact Or.inr ⟨rfl, hsettled, rfl⟩
  | isConstant frame name => exact Or.inr ⟨rfl, hsettled, rfl⟩
  | isLocalConstant frame name => exact Or.inr ⟨rfl, hsettled, rfl⟩

/-- A run of calls settles the arena, and the next sweep comes when there are
twice as many exited frames as the last one has left. -/
theorem run_settled (before : Nat) (hsettled : c.arena.Settled)
    (hbefore : c.arena.sweepAt = max (before * 2) minimumBacklog)
    (calls : List (Call α)) :
    (c.run recycling calls).2.arena.Settled ∧
      (c.run recycling calls).2.arena.sweepAt =
        max (retained before c calls * 2) minimumBacklog := by
  induction calls generalizing c before with
  | nil => exact ⟨hsettled, hbefore⟩
  | cons call calls ih =>
    rcases step_settled hsettled call with ⟨a, hswept, hcounted, hstep⟩ |
      ⟨hkept, hstep, hsame⟩
    · rw [run, retained, hswept]
      refine ih _ ?_ ?_
      · rw [hstep]
        exact hcounted.settled_sweep
      · rw [hstep]
        rfl
    · rw [run, retained, hkept]
      exact ih before hstep (hsame.trans hbefore)

/-- After every call of every sequence of calls, whatever frames and holds they
name: the free list has every empty slot once, the root is there and has not
exited, every exited frame is pinned, every constant of a frame is bound in it, the count
of exited frames is right, and it is below `sweepAt`, which is at least 64 and
twice the count that the last sweep has left.  A lookup finds the
constants of a frame there.  And what is swept next has counted all the frames that the sweep
frees. -/
theorem settled_after_run (calls : List (Call α)) :
    let c := ((start : Client α).run recycling calls).2
    c.arena.Settled ∧
    c.arena.exited < max (2 * retained 0 (start : Client α) calls) 64 ∧
    (∀ slot name, c.arena.isLocalConstant slot name = true →
      ∃ frame value, c.arena.frame? slot = some frame ∧
        frame.bindings.values[name]? = some value ∧
        c.arena.get? slot name = some value) ∧
    ∀ call a, c.swept? call = some a →
      (c.step recycling call).2.arena = a.sweep ∧
      a.exited = a.exitedSlots.card ∧ a.dead.length ≤ a.exited := by
  intro c
  obtain ⟨hsettled, hsweepAt⟩ :=
    run_settled (c := (start : Client α)) 0 Arena.settled_new rfl calls
  refine ⟨hsettled, ?_, ?_, ?_⟩
  · have hlt := hsettled.exited_lt
    rw [hsweepAt, Nat.mul_comm] at hlt
    exact hlt
  · exact fun _ _ => hsettled.toTidy.get?_of_isLocalConstant
  · intro call a hswept
    rcases step_settled hsettled call with ⟨b, hb, hcounted, hstep⟩ | ⟨hkept, -⟩
    · rw [hswept, Option.some.injEq] at hb
      subst hb
      exact ⟨hstep, hcounted.exited_eq, hcounted.length_dead_le⟩
    · rw [hswept] at hkept
      cases hkept

/-- A frame that is released a second time is not counted again, and its constants
stay bound until it is swept. -/
theorem settled_after_run_releasedTwice :
    let calls : List (Call Nat) :=
      [.child 0, .pin 1, .setConstant 1 "k" 7, .release 1, .release 1, .drop 0]
    let c := (start.run recycling calls).2
    c.arena.Settled ∧ c.arena.exited = 1 ∧
      (c.arena.isLocalConstant 1 "k" = true ∧
        ∃ frame value, c.arena.frame? 1 = some frame ∧
          frame.bindings.values["k"]? = some value ∧
          c.arena.get? 1 "k" = some value) ∧
      c.swept? .sweep = some c.arena ∧ c.arena.dead.length = 1 ∧
      c.arena.dead.length ≤ c.arena.exited := by
  intro calls c
  obtain ⟨hsettled, -, hconstants, hswept⟩ := settled_after_run calls
  have hconstant : c.arena.isLocalConstant 1 "k" = true := by decide
  exact ⟨hsettled, by decide, ⟨hconstant, hconstants 1 "k" hconstant⟩, rfl,
    by decide, (hswept .sweep c.arena rfl).2.2⟩

end Client

end Script.Scope
