import Script.Proofs.Scope.Chains
import Script.Proofs.Scope.Ledger

/-!
# Recycling slots is not seen

A client that makes only the calls its ledger permits gets the same answers from
an arena that uses its slots again as from one that keeps every frame.  The
invariant has two parts.  `Tracks` ties the ledger to the recycling arena: the
reachable frames are there, each in a slot of its own.  `Agrees` ties the two
arenas to each other: a reachable frame binds the same names in both.
-/

namespace Script.Scope

variable {α : Type} {l : Ledger} {c k : Client α}

namespace Client

/-! ### Owners of holds -/

/-- How many owners the ledger knows of a hold, over all pins that gave it. -/
def ownersOf (id : HoldId) : List HoldId → List (Nat × Nat) → Nat
  | hold :: holds, (_, n) :: entries =>
    (if hold = id then n else 0) + ownersOf id holds entries
  | _, _ => 0

theorem ownersOf_append (id hold : HoldId) (entry : Nat × Nat)
    {holds : List HoldId} {entries : List (Nat × Nat)}
    (hlength : holds.length = entries.length) :
    ownersOf id (holds ++ [hold]) (entries ++ [entry]) =
      ownersOf id holds entries + if hold = id then entry.2 else 0 := by
  induction holds generalizing entries with
  | nil =>
    cases entries with
    | nil => simp [ownersOf]
    | cons => simp at hlength
  | cons first holds ih =>
    cases entries with
    | nil => simp at hlength
    | cons entry' entries =>
      simp only [List.length_cons, Nat.add_right_cancel_iff] at hlength
      simp [ownersOf, ih hlength, Nat.add_assoc]

/-- A hold that no pin gave has no owners. -/
theorem le_ownersOf {id : HoldId} {index frame n : Nat} {holds : List HoldId}
    {entries : List (Nat × Nat)} (hhold : holds[index]? = some id)
    (hentry : entries[index]? = some (frame, n)) :
    n ≤ ownersOf id holds entries := by
  induction index generalizing holds entries with
  | zero =>
    cases holds <;> cases entries <;> simp_all [ownersOf]
  | succ index ih =>
    cases holds with
    | nil => simp at hhold
    | cons first holds =>
      cases entries with
      | nil => simp at hentry
      | cons entry entries =>
        simp only [List.getElem?_cons_succ] at hhold hentry
        exact Nat.le_trans (ih hhold hentry) (Nat.le_add_left _ _)

/-- Changing the owners of one pin changes the sum for its hold alone. -/
theorem ownersOf_modify {index frame n : Nat} {hold : HoldId}
    {holds : List HoldId} {entries : List (Nat × Nat)} (id : HoldId)
    (count : Nat → Nat)
    (hhold : holds[index]? = some hold)
    (hentry : entries[index]? = some (frame, n)) :
    ownersOf id holds (entries.modify index fun entry => (entry.1, count entry.2))
        + (if hold = id then n else 0) =
      ownersOf id holds entries + if hold = id then count n else 0 := by
  induction index generalizing holds entries with
  | zero =>
    cases holds with
    | nil => simp at hhold
    | cons first holds =>
      cases entries with
      | nil => simp at hentry
      | cons entry entries =>
        simp only [List.getElem?_cons_zero, Option.some.injEq] at hhold hentry
        subst hhold hentry
        simp only [List.modify_zero_cons, ownersOf]
        split <;> omega
  | succ index ih =>
    cases holds with
    | nil => simp at hhold
    | cons first holds =>
      cases entries with
      | nil => simp at hentry
      | cons entry entries =>
        simp only [List.getElem?_cons_succ] at hhold hentry
        simp only [List.modify_succ_cons, ownersOf]
        have hrest := ih hhold hentry
        omega

end Client

/-! ### The recycling arena and the ledger -/

/-- All of a frame but the names it binds. -/
def Frame.status (frame : Frame α) :
    Option FrameId × Bool × Bool × Option HoldId :=
  (frame.outer, frame.pinned, frame.exited, frame.hold)

/-- Reachable frames are in the arena, each in a slot of its own and inside the
right frame; the running ones have not exited, and the held ones are pinned. -/
structure Tracks (l : Ledger) (c : Client α) : Prop where
  sound : l.Sound
  tidy : c.arena.Tidy
  rooted : c.arena.Rooted
  length_frames : c.frames.length = l.outers.length
  length_holds : c.holds.length = l.holds.length
  root_slot : c.slot 0 = Arena.root
  frame : ∀ f, l.Reachable f →
    ∃ frame, c.arena.frame? (c.slot f) = some frame ∧
      frame.outer = (l.outer? f).map c.slot
  slot_inj : ∀ f g, l.Reachable f → l.Reachable g → c.slot f = c.slot g → f = g
  running : ∀ slot, slot ≠ Arena.root →
    (c.arena.Running slot ↔ ∃ f ∈ l.running, c.slot f = slot)
  held : ∀ h f n, l.holds[h]? = some (f, n) → 0 < n →
    ∃ frame, c.arena.frame? (c.slot f) = some frame ∧
      frame.hold = some (c.hold h) ∧ frame.pinned = true
  owners : ∀ id,
    c.arena.holds.getD id 0 = Client.ownersOf id c.holds l.holds
  hold_given : ∀ id ∈ c.holds, id < c.arena.holds.size
  frame_hold : ∀ slot frame id, c.arena.frame? slot = some frame →
    frame.hold = some id → id < c.arena.holds.size

theorem tracks_start : Tracks Ledger.start (Client.start : Client α) where
  sound := Ledger.sound_start
  tidy := Arena.tidy_new
  rooted := Arena.rooted_new
  length_frames := rfl
  length_holds := rfl
  root_slot := rfl
  frame := by
    intro f hf
    have hmade := Ledger.sound_start.reachable_made hf
    have hzero : f = 0 := Nat.lt_one_iff.mp hmade
    subst hzero
    exact ⟨_, rfl, rfl⟩
  slot_inj := by
    intro f g hf hg _
    have hf' := Nat.lt_one_iff.mp (Ledger.sound_start.reachable_made hf)
    have hg' := Nat.lt_one_iff.mp (Ledger.sound_start.reachable_made hg)
    rw [hf', hg']
  running := by
    intro slot hroot
    constructor
    · rintro ⟨frame, hframe, -⟩
      exact absurd (Nat.lt_one_iff.mp (Arena.lt_size_of_frame? hframe)) hroot
    · rintro ⟨f, hf, -⟩
      cases hf
  held := by
    intro h f n hhold
    simp [Ledger.start] at hhold
  owners := fun _ => rfl
  hold_given := by simp [Client.start]
  frame_hold := by
    intro slot frame id hframe hhold
    have hslot : slot = 0 := Nat.lt_one_iff.mp (Arena.lt_size_of_frame? hframe)
    subst hslot
    cases hframe
    cases hhold

namespace Tracks

theorem slot_ne_root (h : Tracks l c) {f : Nat} (hf : f ∈ l.running) :
    c.slot f ≠ Arena.root := by
  intro heq
  have hzero := h.slot_inj f 0 (Ledger.reachable_of_running hf)
    l.reachable_root (heq.trans h.root_slot.symm)
  exact absurd hzero (Nat.ne_of_gt (h.sound.running_made f hf).1)

theorem running_slot (h : Tracks l c) {f : Nat} (hf : f ∈ l.running) :
    c.arena.Running (c.slot f) :=
  (h.running _ (h.slot_ne_root hf)).mpr ⟨f, hf, rfl⟩

/-- The slot of the outer frame is the outer frame of the slot. -/
theorem frame_outer (h : Tracks l c) {f o : Nat} (hf : l.Reachable f)
    (houter : l.outer? f = some o) :
    ∃ frame, c.arena.frame? (c.slot f) = some frame ∧
      frame.outer = some (c.slot o) := by
  obtain ⟨frame, hframe, hsame⟩ := h.frame f hf
  exact ⟨frame, hframe, by rw [hsame, houter, Option.map_some]⟩

/-- What a closed property of slots says of a frame it says of those around. -/
theorem around_induction (h : Tracks l c) {P : FrameId → Prop}
    (hclosed : ∀ inner frame outer, P inner →
      c.arena.frame? inner = some frame → frame.outer = some outer → P outer)
    {f g : Nat} (hf : l.Reachable f) (haround : l.Around f g)
    (hP : P (c.slot f)) : P (c.slot g) := by
  induction haround with
  | self => exact hP
  | outside houter _ ih =>
    obtain ⟨frame, hframe, hslot⟩ := h.frame_outer hf houter
    exact ih (hf.outer houter) (hclosed _ _ _ hP hframe hslot)

theorem pinned_around (h : Tracks l c) {f g : Nat} (hf : l.Reachable f)
    (haround : l.Around f g) (hpinned : c.arena.IsPinned (c.slot f)) :
    c.arena.IsPinned (c.slot g) := by
  refine h.around_induction ?_ hf haround hpinned
  rintro inner frame outer ⟨frame', hframe', hpinned'⟩ hframe houter
  rw [hframe, Option.some.injEq] at hframe'
  subst hframe'
  exact h.rooted.pinned_outer inner frame outer hframe hpinned' houter

theorem held_pinned (h : Tracks l c) {f n : Nat} (hheld : (f, n) ∈ l.holds)
    (hn : 0 < n) : c.arena.IsPinned (c.slot f) := by
  obtain ⟨index, hindex⟩ := List.mem_iff_getElem?.mp hheld
  obtain ⟨frame, hframe, -, hpinned⟩ := h.held index f n hindex hn
  exact ⟨frame, hframe, hpinned⟩

/-- A frame that the client has a hold on counts as held. -/
theorem held_isNeeded (h : Tracks l c) {f n : Nat} (hheld : (f, n) ∈ l.holds)
    (hn : 0 < n) : c.arena.isNeeded (c.slot f) = true := by
  obtain ⟨index, hindex⟩ := List.mem_iff_getElem?.mp hheld
  obtain ⟨frame, hframe, hhold, -⟩ := h.held index f n hindex hn
  have hlt : index < c.holds.length := by
    rw [h.length_holds]
    exact (List.getElem?_eq_some_iff.mp hindex).1
  have hgiven : c.holds[index]? = some (c.hold index) := by
    simp [Client.hold, List.getD, hlt]
  have howners : 0 < c.arena.holds.getD (c.hold index) 0 := by
    rw [h.owners]
    exact Nat.lt_of_lt_of_le hn (Client.le_ownersOf hgiven hindex)
  have hisHeld : c.arena.isHeld frame = true := by
    simp only [Arena.isHeld, hhold, Option.any_some, decide_eq_true_eq]
    exact howners
  simp [Arena.isNeeded, hframe, hisHeld]

/-- No reachable frame is swept. -/
theorem marks_slot (h : Tracks l c) {f : Nat} (hf : l.Reachable f) :
    c.arena.marks.getD (c.slot f) false = true := by
  obtain ⟨anchor, hanchor, haround⟩ := hf
  refine h.around_induction h.rooted.marks_closed
    (Ledger.Anchored.reachable hanchor) haround ?_
  rcases hanchor with rfl | hrunning | ⟨n, hheld, hn⟩
  · rw [h.root_slot]
    obtain ⟨frame, hframe, -⟩ := h.tidy.root_running
    exact Arena.marks_root (Arena.lt_size_of_frame? hframe)
  · exact Arena.marks_of_isNeeded
      (Arena.isNeeded_of_running (h.running_slot hrunning))
  · exact Arena.marks_of_isNeeded (h.held_isNeeded hheld hn)

/-! ### Frames that stay -/

/-- No frame is made and no hold is given: what is left of the reachable frames stays in
its slot, inside the same frame and with the same hold. -/
theorem of_frames (h : Tracks l c) {m : Ledger} {b : Arena α} (hsound : m.Sound)
    (htidy : b.Tidy) (hrooted : b.Rooted) (houters : m.outers = l.outers)
    (hentries : m.holds = l.holds) (hreach : ∀ f, m.Reachable f → l.Reachable f)
    (hholds : b.holds = c.arena.holds)
    (hstays : ∀ f old, m.Reachable f → c.arena.frame? (c.slot f) = some old →
      ∃ new, b.frame? (c.slot f) = some new ∧ new.outer = old.outer ∧
        new.hold = old.hold ∧ new.pinned = old.pinned)
    (hbefore : ∀ slot new, b.frame? slot = some new →
      ∃ old, c.arena.frame? slot = some old ∧ new.hold = old.hold)
    (hrunning : ∀ slot, slot ≠ Arena.root →
      (b.Running slot ↔ ∃ f ∈ m.running, c.slot f = slot)) :
    Tracks m { c with arena := b } := by
  constructor
  case sound => exact hsound
  case tidy => exact htidy
  case rooted => exact hrooted
  case length_frames => exact h.length_frames.trans (congrArg List.length houters.symm)
  case length_holds => exact h.length_holds.trans (congrArg List.length hentries.symm)
  case root_slot => exact h.root_slot
  case slot_inj =>
    intro f g hf hg
    exact h.slot_inj f g (hreach f hf) (hreach g hg)
  case frame =>
    intro f hf
    obtain ⟨old, hold, houter⟩ := h.frame f (hreach f hf)
    obtain ⟨new, hnew, hsame, -⟩ := hstays f old hf hold
    refine ⟨new, hnew, hsame.trans (houter.trans ?_)⟩
    rw [Ledger.outer?, Ledger.outer?, houters]
    rfl
  case running => exact hrunning
  case held =>
    intro index f n hindex hn
    obtain ⟨old, hold, hheld, hpinned⟩ := h.held index f n (hentries ▸ hindex) hn
    have hf : m.Reachable f := Ledger.Anchored.reachable
      (Or.inr (Or.inr ⟨n, List.mem_of_getElem? hindex, hn⟩))
    obtain ⟨new, hnew, -, hsameHold, hsamePinned⟩ := hstays f old hf hold
    exact ⟨new, hnew, hsameHold.trans hheld, hsamePinned.trans hpinned⟩
  case owners =>
    intro id
    rw [hentries]
    exact (congrArg (fun holds => holds.getD id 0) hholds).trans (h.owners id)
  case hold_given =>
    intro id hid
    exact hholds ▸ h.hold_given id hid
  case frame_hold =>
    intro slot new id hnew hhold
    obtain ⟨old, hold, hsame⟩ := hbefore slot new hnew
    exact hholds ▸ h.frame_hold slot old id hold (hsame ▸ hhold)

/-! ### Binding names -/

/-- The names that frames bind do not matter. -/
theorem of_status (h : Tracks l c) {b : Arena α} (htidy : b.Tidy)
    (hrooted : b.Rooted) (hholds : b.holds = c.arena.holds)
    (hstatus : ∀ id, (b.frame? id).map Frame.status =
      (c.arena.frame? id).map Frame.status) :
    Tracks l { c with arena := b } := by
  have hforth : ∀ id old, c.arena.frame? id = some old →
      ∃ new, b.frame? id = some new ∧ new.status = old.status := by
    intro id old hold
    have hid := hstatus id
    rw [hold, Option.map_some] at hid
    exact Option.map_eq_some_iff.mp hid
  have hback : ∀ id new, b.frame? id = some new →
      ∃ old, c.arena.frame? id = some old ∧ new.status = old.status := by
    intro id new hnew
    have hid := hstatus id
    rw [hnew, Option.map_some] at hid
    obtain ⟨old, hold, heq⟩ := Option.map_eq_some_iff.mp hid.symm
    exact ⟨old, hold, heq.symm⟩
  simp only [Frame.status, Prod.mk.injEq] at hforth hback
  apply h.of_frames h.sound htidy hrooted rfl rfl (fun _ hf => hf) hholds
  · intro f old _ hold
    obtain ⟨new, hnew, houter, hpinned, -, hhold⟩ := hforth _ old hold
    exact ⟨new, hnew, houter, hhold, hpinned⟩
  · intro slot new hnew
    obtain ⟨old, hold, -, -, -, hhold⟩ := hback slot new hnew
    exact ⟨old, hold, hhold⟩
  · intro slot hroot
    refine Iff.trans ?_ (h.running slot hroot)
    constructor
    · rintro ⟨new, hnew, hrunning⟩
      obtain ⟨old, hold, -, -, hexited, -⟩ := hback slot new hnew
      exact ⟨old, hold, hexited ▸ hrunning⟩
    · rintro ⟨old, hold, hrunning⟩
      obtain ⟨new, hnew, -, -, hexited, -⟩ := hforth slot old hold
      exact ⟨new, hnew, hexited.trans hrunning⟩

theorem of_bindings (h : Tracks l c) (slot : FrameId)
    {f : Bindings α → Bindings α}
    (hf : ∀ bindings, bindings.Bound → (f bindings).Bound) :
    Tracks l { c with arena := c.arena.modifyFrame slot fun frame =>
      { frame with bindings := f frame.bindings } } := by
  apply h.of_status
  · exact h.tidy.quiet (Arena.quiet_modifyFrame slot (fun _ => rfl)
      (fun _ => rfl) (fun _ hpinned => hpinned) fun frame => hf frame.bindings)
  · exact h.rooted.modifyFrame slot (fun _ => rfl) (fun _ => rfl)
  · rfl
  · intro id
    rw [Arena.frame?_modifyFrame]
    split
    · next heq =>
      subst heq
      cases c.arena.frame? id <;> rfl
    · rfl

/-! ### New frames -/

theorem slot_old (h : Tracks l c) (arena : Arena α) (new : FrameId) {f : Nat}
    (hf : f < l.outers.length) :
    Client.slot { c with arena, frames := c.frames ++ [new] } f = c.slot f := by
  simp only [Client.slot]
  exact List.getD_append _ _ _ _ (h.length_frames ▸ hf)

theorem slot_new (h : Tracks l c) (arena : Arena α) (new : FrameId) :
    Client.slot { c with arena, frames := c.frames ++ [new] } l.outers.length =
      new := by
  simp [Client.slot, List.getD, ← h.length_frames]

theorem child (h : Tracks l c) {outer : Nat} (houter : l.Reachable outer) :
    Tracks (l.after (.child outer : Call α))
      { c with
        arena := (c.arena.child (c.slot outer)).2
        frames := c.frames ++ [(c.arena.child (c.slot outer)).1] } := by
  obtain ⟨outerFrame, houterFrame, -⟩ := h.frame outer houter
  have hempty := h.tidy.frame?_child_slot (c.slot outer)
  have hframes := h.tidy.frame?_child (c.slot outer)
  have hholds : (c.arena.child (c.slot outer)).2.holds = c.arena.holds := by
    unfold Arena.child
    split <;> rfl
  have hmade : ∀ {f : Nat}, l.Reachable f → f < l.outers.length :=
    fun hf => h.sound.reachable_made hf
  have hnew := fun arena => h.slot_new arena (c.arena.child (c.slot outer)).1
  have hkeep : ∀ id frame, c.arena.frame? id = some frame →
      (c.arena.child (c.slot outer)).2.frame? id = some frame := by
    intro id frame hframe
    rw [hframes, if_neg, hframe]
    rintro rfl
    simp [hframe] at hempty
  have hfresh : ∀ f, l.Reachable f →
      c.slot f ≠ (c.arena.child (c.slot outer)).1 := by
    intro f hf heq
    obtain ⟨frame, hframe, -⟩ := h.frame f hf
    simp [← heq, hframe] at hempty
  constructor
  case sound => exact h.sound.after_child houter
  case tidy => exact h.tidy.child (c.slot outer)
  case rooted => exact h.rooted.child h.tidy houterFrame
  case length_frames => simp [Ledger.after, h.length_frames]
  case length_holds => exact h.length_holds
  case root_slot => exact (h.slot_old _ _ h.sound.root_made).trans h.root_slot
  case frame =>
    intro f hf
    rw [Ledger.outer?_child]
    rcases h.sound.reachable_child houter hf with rfl | hf
    · refine ⟨{ outer := some (c.slot outer) }, ?_, ?_⟩
      · rw [hnew, hframes, if_pos rfl]
      · rw [if_pos rfl, Option.map_some, h.slot_old _ _ (hmade houter)]
    · obtain ⟨frame, hframe, hsame⟩ := h.frame f hf
      refine ⟨frame, ?_, ?_⟩
      · rw [h.slot_old _ _ (hmade hf)]
        exact hkeep _ frame hframe
      · rw [if_neg (Nat.ne_of_lt (hmade hf)), hsame]
        cases ho : l.outer? f with
        | none => rfl
        | some o =>
          rw [Option.map_some, Option.map_some,
            h.slot_old _ _ (hmade (hf.outer ho))]
  case slot_inj =>
    intro f g hf hg heq
    rcases h.sound.reachable_child houter hf with rfl | hf <;>
      rcases h.sound.reachable_child houter hg with rfl | hg
    · rfl
    · rw [hnew, h.slot_old _ _ (hmade hg)] at heq
      exact absurd heq.symm (hfresh g hg)
    · rw [hnew, h.slot_old _ _ (hmade hf)] at heq
      exact absurd heq (hfresh f hf)
    · rw [h.slot_old _ _ (hmade hf), h.slot_old _ _ (hmade hg)] at heq
      exact h.slot_inj f g hf hg heq
  case running =>
    intro slot hroot
    rw [h.tidy.running_child_iff, h.running slot hroot]
    constructor
    · rintro (⟨f, hf, hslot⟩ | rfl)
      · refine ⟨f, List.mem_cons_of_mem _ hf, ?_⟩
        rwa [h.slot_old _ _ (hmade (Ledger.reachable_of_running hf))]
      · exact ⟨l.outers.length, List.mem_cons_self, hnew _⟩
    · rintro ⟨f, hf, hslot⟩
      rcases List.mem_cons.mp hf with rfl | hf
      · exact Or.inr ((hnew _).symm.trans hslot).symm
      · refine Or.inl ⟨f, hf, ?_⟩
        rwa [h.slot_old _ _ (hmade (Ledger.reachable_of_running hf))] at hslot
  case held =>
    intro index f n hindex hn
    obtain ⟨frame, hframe, hhold, hpinned⟩ := h.held index f n hindex hn
    have hf := h.sound.held_made _ (List.mem_of_getElem? hindex)
    refine ⟨frame, ?_, hhold, hpinned⟩
    rw [h.slot_old _ _ hf]
    exact hkeep _ frame hframe
  case owners =>
    intro id
    exact (congrArg (fun holds => holds.getD id 0) hholds).trans (h.owners id)
  case hold_given =>
    intro id hid
    exact hholds ▸ h.hold_given id hid
  case frame_hold =>
    intro slot frame id hframe hhold
    rw [hframes] at hframe
    split at hframe
    · cases hframe
      cases hhold
    · exact hholds ▸ h.frame_hold slot frame id hframe hhold

/-! ### The end of frames -/

theorem sweep (h : Tracks l c) :
    Tracks l { c with arena := c.arena.sweep } := by
  apply h.of_frames h.sound h.tidy.sweep h.rooted.sweep rfl rfl (fun _ hf => hf)
    Arena.holds_sweep
  · intro f frame hf hframe
    have hmark := h.marks_slot hf
    exact ⟨frame, (Arena.frame?_sweep_of_marks hmark).trans hframe, rfl, rfl, rfl⟩
  · intro slot frame hframe
    exact ⟨frame, (Arena.frame?_of_frame?_sweep hframe).2, rfl⟩
  · intro slot hroot
    exact (Arena.running_sweep_iff slot).trans (h.running slot hroot)

section Release

variable {f : Nat}

theorem running_after_release (h : Tracks l c) (hf : f ∈ l.running)
    {slot : FrameId} :
    (∃ g ∈ (l.after (.release f : Call α)).running, c.slot g = slot) ↔
      (∃ g ∈ l.running, c.slot g = slot) ∧ slot ≠ c.slot f := by
  have hfReach := Ledger.reachable_of_running hf
  simp only [Ledger.after, List.mem_filter, decide_eq_true_eq]
  constructor
  · rintro ⟨g, ⟨hg, hne⟩, rfl⟩
    refine ⟨⟨g, hg, rfl⟩, fun heq => hne ?_⟩
    exact h.slot_inj g f (Ledger.reachable_of_running hg) hfReach heq
  · rintro ⟨⟨g, hg, rfl⟩, hne⟩
    exact ⟨g, ⟨hg, fun heq => hne (heq ▸ rfl)⟩, rfl⟩

/-- The block of a pinned frame ends. -/
theorem release_pinned (h : Tracks l c) (hf : f ∈ l.running)
    {frame : Frame α} (hframe : c.arena.frame? (c.slot f) = some frame)
    (hpinned : frame.pinned = true) :
    Tracks (l.after (.release f : Call α))
      { c with arena := c.arena.markExited (c.slot f) } := by
  have hroot := h.slot_ne_root hf
  apply h.of_frames (h.sound.after_release f) (h.tidy.markExited hroot hframe hpinned)
    (h.rooted.markExited (c.slot f)) rfl rfl (fun _ hg => Ledger.reachable_release hg) rfl
  · intro g old _ hold
    rw [Arena.frame?_markExited]
    split
    · next heq =>
      rw [← heq, hold]
      exact ⟨{ old with exited := true }, rfl, rfl, rfl, rfl⟩
    · exact ⟨old, hold, rfl, rfl, rfl⟩
  · intro slot new hnew
    rw [Arena.frame?_markExited] at hnew
    split at hnew
    · next heq =>
      rw [hframe, Option.map_some, Option.some.injEq] at hnew
      exact ⟨frame, heq ▸ hframe, hnew ▸ rfl⟩
    · exact ⟨new, hnew, rfl⟩
  · intro slot hslot
    refine Iff.trans ?_ (h.running_after_release hf).symm
    rw [← h.running slot hslot]
    unfold Arena.Running
    rw [Arena.frame?_markExited]
    split
    · next heq => simp [heq, hframe]
    · next hne => simp [hne]

/-- A frame that is not pinned is out of reach when its block has ended. -/
theorem not_reachable_after_release (h : Tracks l c) (hf : f ∈ l.running)
    (hinnermost : ∀ inner ∈ l.running, l.Around inner f → inner = f)
    (hpinned : ¬ c.arena.IsPinned (c.slot f)) :
    ¬ (l.after (.release f : Call α)).Reachable f := by
  rintro ⟨anchor, hanchor, haround⟩
  have haround' : l.Around anchor f := haround.of_outers_eq rfl
  rcases hanchor with rfl | hrunning | ⟨n, hheld, hn⟩
  · have hle := h.sound.around_le haround'
    exact absurd (h.sound.running_made f hf).1 (Nat.not_lt.mpr hle)
  · obtain ⟨hrunning, hne⟩ := List.mem_filter.mp hrunning
    exact (of_decide_eq_true hne) (hinnermost anchor hrunning haround')
  · refine hpinned (h.pinned_around ?_ haround' (h.held_pinned hheld hn))
    exact Ledger.Anchored.reachable (Or.inr (Or.inr ⟨n, hheld, hn⟩))

/-- No frame is inside a frame that is not pinned and has no running frame
inside: it would be running, or it would have exited and be pinned. -/
theorem no_frame_inside (h : Tracks l c) (hf : f ∈ l.running)
    (hinnermost : ∀ inner ∈ l.running, l.Around inner f → inner = f)
    (hpinned : ¬ c.arena.IsPinned (c.slot f)) (id : FrameId) (frame : Frame α)
    (hframe : c.arena.frame? id = some frame) :
    frame.outer ≠ some (c.slot f) := by
  intro houter
  cases hexited : frame.exited with
  | true =>
    exact hpinned (h.rooted.pinned_outer id frame _ hframe
      (h.tidy.exited_pinned id frame hframe hexited) houter)
  | false =>
    have hroot : id ≠ Arena.root := by
      rintro rfl
      simp [h.rooted.root_outer hframe] at houter
    obtain ⟨g, hg, rfl⟩ := (h.running id hroot).mp ⟨frame, hframe, hexited⟩
    have hgReach := Ledger.reachable_of_running hg
    obtain ⟨frame', hframe', hsame⟩ := h.frame g hgReach
    rw [hframe, Option.some.injEq] at hframe'
    subst hframe'
    rw [houter] at hsame
    obtain ⟨o, ho, hslot⟩ := Option.map_eq_some_iff.mp hsame.symm
    have heq := h.slot_inj o f (hgReach.outer ho)
      (Ledger.reachable_of_running hf) hslot
    subst heq
    have hinside := hinnermost g hg
      (Ledger.Around.outside ho (Ledger.Around.self o))
    exact absurd (h.sound.outer_lt g o ho) (by omega)

theorem release_unpinned (h : Tracks l c) (hf : f ∈ l.running)
    (hinnermost : ∀ inner ∈ l.running, l.Around inner f → inner = f)
    {frame : Frame α} (hframe : c.arena.frame? (c.slot f) = some frame)
    (hpinned : frame.pinned = false) :
    Tracks (l.after (.release f : Call α))
      { c with arena := c.arena.freeSlot (c.slot f) } := by
  have hroot := h.slot_ne_root hf
  have hunpinned : ¬ c.arena.IsPinned (c.slot f) := by
    rintro ⟨frame', hframe', hpinned'⟩
    rw [hframe, Option.some.injEq] at hframe'
    subst hframe'
    simp [hpinned] at hpinned'
  have hgone := h.not_reachable_after_release hf hinnermost hunpinned
  have hother : ∀ g, (l.after (.release f : Call α)).Reachable g →
      c.slot g ≠ c.slot f := by
    intro g hg heq
    have hsame := h.slot_inj g f (Ledger.reachable_release hg)
      (Ledger.reachable_of_running hf) heq
    exact hgone (hsame ▸ hg)
  apply h.of_frames (h.sound.after_release f) (h.tidy.freeSlot hroot hframe)
    (h.rooted.freeSlot (h.no_frame_inside hf hinnermost hunpinned)) rfl rfl
    (fun _ hg => Ledger.reachable_release hg) rfl
  · intro g old hg hold
    refine ⟨old, ?_, rfl, rfl, rfl⟩
    exact (Arena.frame?_freeSlot _ _).trans ((if_neg (hother g hg)).trans hold)
  · intro slot new hnew
    rw [Arena.frame?_freeSlot] at hnew
    split at hnew
    · cases hnew
    · exact ⟨new, hnew, rfl⟩
  · intro slot hslot
    refine Iff.trans ?_ (h.running_after_release hf).symm
    rw [← h.running slot hslot]
    unfold Arena.Running
    rw [Arena.frame?_freeSlot]
    split
    · next heq => simp [heq]
    · next hne => simp [hne]

theorem release (h : Tracks l c) (hf : f ∈ l.running)
    (hinnermost : ∀ inner ∈ l.running, l.Around inner f → inner = f) :
    Tracks (l.after (.release f : Call α))
      { c with arena := c.arena.release (c.slot f) } := by
  rcases Arena.release_cases c.arena (c.slot f) with ⟨-, hidle⟩ |
    ⟨frame, -, hframe, hpinned, hfreed⟩ |
    ⟨frame, -, hframe, hpinned, -, hexit⟩
  · rcases hidle with hroot | hidle
    · exact absurd hroot (h.slot_ne_root hf)
    · exact absurd (h.running_slot hf) hidle
  · rw [hfreed]
    exact h.release_unpinned hf hinnermost hframe hpinned
  · have hmarked := h.release_pinned hf hframe hpinned
    rcases hexit with hexit | hexit
    · rwa [hexit]
    · rw [hexit]
      exact hmarked.sweep

end Release

/-! ### Holds -/

theorem hold_old (h : Tracks l c) (arena : Arena α) (new : HoldId)
    {index : Nat} (hindex : index < l.holds.length) :
    Client.hold { c with arena, holds := c.holds ++ [new] } index =
      c.hold index := by
  simp only [Client.hold]
  exact List.getD_append _ _ _ _ (h.length_holds ▸ hindex)

theorem hold_new (h : Tracks l c) (arena : Arena α) (new : HoldId) :
    Client.hold { c with arena, holds := c.holds ++ [new] } l.holds.length =
      new := by
  simp [Client.hold, List.getD, ← h.length_holds]

theorem pin (h : Tracks l c) {f : Nat} (hf : l.Reachable f) :
    Tracks (l.after (.pin f : Call α))
      { c with
        arena := (c.arena.pin (c.slot f)).2
        holds := c.holds ++ [(c.arena.pin (c.slot f)).1] } := by
  obtain ⟨frame, hframe, houter⟩ := h.frame f hf
  have hpin := Arena.pinned_pin hframe
    (fun hold hhold => h.frame_hold _ frame hold hframe hhold)
  have hquiet : Arena.Quiet c.arena (c.arena.pin (c.slot f)).2 :=
    Arena.quiet_pin _
  obtain ⟨hrooted, hpinned⟩ := h.rooted.pin hframe
  constructor
  case sound => exact h.sound.after_pin hf
  case tidy => exact h.tidy.quiet hquiet
  case rooted => exact hrooted
  case length_frames => exact h.length_frames
  case length_holds => simp [Ledger.after, h.length_holds]
  case root_slot => exact h.root_slot
  case slot_inj =>
    intro g g' hg hg'
    exact h.slot_inj g g' (Ledger.reachable_pin hf hg)
      (Ledger.reachable_pin hf hg')
  case frame =>
    intro g hg
    obtain ⟨old, hold, houter⟩ := h.frame g (Ledger.reachable_pin hf hg)
    obtain ⟨new, hnew, hsame, -⟩ := hquiet.frame _ old hold
    exact ⟨new, hnew, hsame.trans houter⟩
  case running =>
    intro slot hslot
    exact (hquiet.running_iff slot).trans (h.running slot hslot)
  case held =>
    intro index g n hindex hn
    rw [Ledger.after, List.getElem?_append] at hindex
    split at hindex
    · next hlt =>
      obtain ⟨old, hold, hhold, hpinned⟩ := h.held index g n hindex hn
      obtain ⟨new, hnew, -, -, hstill⟩ := hquiet.frame _ old hold
      refine ⟨new, hnew, ?_, hstill hpinned⟩
      rw [h.hold_old _ _ hlt]
      exact hpin.hold_kept hold hnew hhold
    · next hge =>
      rw [List.getElem?_singleton] at hindex
      split at hindex
      · next hzero =>
        have hlast : index = l.holds.length := by omega
        rw [Option.some.injEq, Prod.mk.injEq] at hindex
        obtain ⟨rfl, -⟩ := hindex
        obtain ⟨new, hnew, hnewPinned⟩ := hpinned
        refine ⟨new, hnew, ?_, hnewPinned⟩
        rw [hlast, h.hold_new]
        exact (hpin.hold_eq hframe hnew).1
      · cases hindex
  case owners =>
    intro id
    refine (hpin.owners id).trans ?_
    simp only [Ledger.after]
    rw [Client.ownersOf_append _ _ _ h.length_holds, h.owners]
  case hold_given =>
    intro id hid
    rcases List.mem_append.mp hid with hid | hid
    · exact Nat.lt_of_lt_of_le (h.hold_given id hid) hpin.size_le
    · rw [List.mem_singleton] at hid
      subst hid
      exact hpin.hold_lt
  case frame_hold =>
    intro slot new id hnew hhold
    obtain ⟨old, hold, -⟩ := hquiet.frame_before hnew
    by_cases hslot : slot = c.slot f
    · subst hslot
      rw [(hpin.hold_eq hold hnew).1, Option.some.injEq] at hhold
      subst hhold
      exact hpin.hold_lt
    · rw [hpin.hold_of_ne hold hnew hslot] at hhold
      exact Nat.lt_of_lt_of_le (h.frame_hold slot old id hold hhold) hpin.size_le

/-- The number of owners of an owned hold changes, in the arena as in the
ledger. -/
theorem modify_hold (h : Tracks l c) {hold : Nat} (howned : l.Owned hold)
    (count : Nat → Nat) (hcount : ∀ n m, 0 < n → n ≤ m →
      count m + n = m + count n) :
    Tracks
      { l with
        holds := l.holds.modify hold fun entry => (entry.1, count entry.2) }
      { c with
        arena := { c.arena with
          holds := c.arena.holds.modify (c.hold hold) count } } := by
  have hreach : ∀ {g : Nat}, Ledger.Reachable { l with
      holds := l.holds.modify hold fun entry => (entry.1, count entry.2) } g →
      l.Reachable g :=
    fun hg => Ledger.reachable_modify_holds count howned hg
  obtain ⟨f, n, hentry, hn⟩ := howned
  have hlt : hold < c.holds.length := by
    rw [h.length_holds]
    exact (List.getElem?_eq_some_iff.mp hentry).1
  have hgiven : c.holds[hold]? = some (c.hold hold) := by
    simp [Client.hold, List.getD, hlt]
  have hsize : c.hold hold < c.arena.holds.size :=
    h.hold_given _ (List.mem_of_getElem? hgiven)
  constructor
  case sound => exact h.sound.modify_holds count
  case tidy => exact h.tidy.quiet (Arena.quiet_of_frames_eq rfl rfl)
  case rooted => exact h.rooted.of_frames_eq rfl
  case length_frames => exact h.length_frames
  case length_holds => simpa using h.length_holds
  case root_slot => exact h.root_slot
  case slot_inj =>
    intro g g' hg hg'
    exact h.slot_inj g g' (hreach hg) (hreach hg')
  case frame =>
    intro g hg
    exact h.frame g (hreach hg)
  case running => exact h.running
  case held =>
    intro index g m hindex hm
    rw [List.getElem?_modify] at hindex
    obtain ⟨⟨g', m'⟩, hold', heq⟩ := Option.map_eq_some_iff.mp hindex
    by_cases hhold : hold = index
    · subst hhold
      rw [hentry, Option.some.injEq, Prod.mk.injEq] at hold'
      obtain ⟨rfl, rfl⟩ := hold'
      rw [if_pos rfl, Prod.mk.injEq] at heq
      obtain ⟨rfl, -⟩ := heq
      exact h.held _ f n hentry hn
    · rw [if_neg hhold, Prod.mk.injEq] at heq
      obtain ⟨rfl, rfl⟩ := heq
      exact h.held index g' m' hold' hm
  case owners =>
    intro id
    have hsum := Client.ownersOf_modify id count hgiven hentry
    have hle := Client.le_ownersOf hgiven hentry
    have hold' := h.owners id
    by_cases hid : c.hold hold = id
    · subst hid
      have hget : (c.arena.holds.modify (c.hold hold) count).getD
          (c.hold hold) 0 = count (c.arena.holds.getD (c.hold hold) 0) := by
        simp [Array.getD, hsize, Array.getElem_modify]
      rw [if_pos rfl, if_pos rfl] at hsum
      have hcount' := hcount n _ hn hle
      simp only [hget, hold']
      omega
    · have hget : (c.arena.holds.modify (c.hold hold) count).getD id 0 =
          c.arena.holds.getD id 0 := by
        by_cases hsize' : id < c.arena.holds.size
        · simp [Array.getD, hsize', Array.getElem_modify, hid]
        · simp [Array.getD, hsize']
      rw [if_neg hid, if_neg hid] at hsum
      simp only [hget, hold']
      omega
  case hold_given =>
    intro id hid
    simpa using h.hold_given id hid
  case frame_hold =>
    intro slot frame id hframe hhold
    simpa using h.frame_hold slot frame id hframe hhold

end Tracks

/-! ### The two arenas -/

/-- The client `k` of an arena that keeps every frame has frame `f` in slot `f`,
and each reachable frame binds the same names there as for the client `c`. -/
structure Agrees (l : Ledger) (c k : Client α) : Prop where
  size : k.arena.frames.size = l.outers.length
  slots : k.frames = List.range l.outers.length
  kept : ∀ f < l.outers.length,
    ∃ frame, k.arena.frame? f = some frame ∧ frame.outer = l.outer? f
  bindings : ∀ f, l.Reachable f →
    (c.arena.frame? (c.slot f)).map (·.bindings) =
      (k.arena.frame? f).map (·.bindings)

theorem agrees_start :
    Agrees Ledger.start (Client.start : Client α) Client.start where
  size := rfl
  slots := rfl
  kept := by
    intro f hf
    have hzero : f = 0 := Nat.lt_one_iff.mp hf
    subst hzero
    exact ⟨_, rfl, rfl⟩
  bindings := by
    intro f hf
    have hzero := Nat.lt_one_iff.mp (Ledger.sound_start.reachable_made hf)
    subst hzero
    rfl

namespace Agrees

theorem slot_eq (h : Agrees l c k) {f : Nat} (hf : f < l.outers.length) :
    k.slot f = f := by
  simp [Client.slot, h.slots, List.getD, hf]

/-- The frames that the two arenas find a name in are the same. -/
theorem resolveWithin_eq (h : Agrees l c k) (ht : Tracks l c) (name : String)
    {f n m : Nat} {chain : List FrameId} (hf : l.Reachable f)
    (hchain : c.arena.Chain (c.slot f) chain) (hn : chain.length ≤ n)
    (hm : f < m) :
    c.arena.resolveWithin name n (c.slot f) =
      (k.arena.resolveWithin name m f).map fun (g, b) => (c.slot g, b) := by
  induction m generalizing f n chain with
  | zero => exact absurd hm (Nat.not_lt_zero _)
  | succ m ih =>
    obtain ⟨frame, hframe, houter⟩ := ht.frame f hf
    obtain ⟨keptFrame, hkept, hkeptOuter⟩ :=
      h.kept f (ht.sound.reachable_made hf)
    have hbindings := h.bindings f hf
    rw [hframe, hkept, Option.map_some, Option.map_some,
      Option.some.injEq] at hbindings
    obtain ⟨n, rfl⟩ := Nat.exists_eq_add_of_le'
      (Nat.le_trans hchain.length_pos hn)
    simp only [Arena.resolveWithin, hframe, hkept, hbindings]
    cases find? name keptFrame.bindings with
    | some b => rfl
    | none =>
      rw [houter, hkeptOuter]
      cases ho : l.outer? f with
      | none => rfl
      | some o =>
        rw [ho, Option.map_some] at houter
        obtain ⟨rest, hrest, hlength⟩ := hchain.outer hframe houter
        have hlt := ht.sound.outer_lt f o ho
        exact ih (hf.outer ho) hrest (by omega) (by omega)

/-- A name is found in a frame around the one it is looked up from. -/
theorem around_of_resolveWithin (h : Agrees l c k) (ht : Tracks l c)
    {name : String} {f g m : Nat} {b : Binding α} (hf : l.Reachable f)
    (hfound : k.arena.resolveWithin name m f = some (g, b)) :
    l.Around f g := by
  induction m generalizing f with
  | zero => cases hfound
  | succ m ih =>
    obtain ⟨frame, hframe, houter⟩ := h.kept f (ht.sound.reachable_made hf)
    simp only [Arena.resolveWithin, hframe, houter] at hfound
    split at hfound
    · rw [Option.some.injEq, Prod.mk.injEq] at hfound
      obtain ⟨rfl, -⟩ := hfound
      exact Ledger.Around.self f
    · split at hfound
      · cases hfound
      · next o ho =>
        exact Ledger.Around.outside ho (ih (hf.outer ho) hfound)

theorem resolve?_eq (h : Agrees l c k) (ht : Tracks l c) {f : Nat}
    (hf : l.Reachable f) (name : String) :
    c.arena.resolve? (c.slot f) name =
      (k.arena.resolve? (k.slot f) name).map fun (g, b) => (c.slot g, b) := by
  obtain ⟨frame, hframe, -⟩ := ht.frame f hf
  obtain ⟨chain, hchain⟩ := ht.rooted.chain _ frame hframe
  have hmade := ht.sound.reachable_made hf
  rw [h.slot_eq hmade]
  exact h.resolveWithin_eq ht name hf hchain hchain.length_le (h.size ▸ hmade)

/-! ### Agreement after a call -/

/-- Agreement is kept where no name is bound and no frame is made. -/
theorem of_same {m : Ledger} {c' k' : Client α} (h : Agrees l c k)
    (houters : m.outers = l.outers)
    (hreach : ∀ f, m.Reachable f → l.Reachable f)
    (hnames : ∀ f, m.Reachable f →
      (c'.arena.frame? (c'.slot f)).map (·.bindings) =
        (c.arena.frame? (c.slot f)).map (·.bindings))
    (hquiet : Arena.Quiet k.arena k'.arena) (hframes : k'.frames = k.frames)
    (hkept : ∀ f, (k'.arena.frame? f).map (·.bindings) =
      (k.arena.frame? f).map (·.bindings)) : Agrees m c' k' where
  size := by rw [hquiet.size, h.size, houters]
  slots := by rw [hframes, h.slots, houters]
  kept := by
    intro f hf
    rw [houters] at hf
    obtain ⟨old, hold, houter⟩ := h.kept f hf
    obtain ⟨new, hnew, hsame, -⟩ := hquiet.frame f old hold
    refine ⟨new, hnew, hsame.trans (houter.trans ?_)⟩
    rw [Ledger.outer?, Ledger.outer?, houters]
  bindings := by
    intro f hf
    rw [hnames f hf, h.bindings f (hreach f hf), hkept f]

/-- Both clients change the names that a frame binds. -/
theorem of_bindings (h : Agrees l c k) (ht : Tracks l c) {f : Nat}
    (hf : l.Reachable f) {change : Bindings α → Bindings α}
    (hchange : ∀ bindings, bindings.Bound → (change bindings).Bound) :
    Agrees l
      { c with arena := c.arena.modifyFrame (c.slot f) fun frame =>
        { frame with bindings := change frame.bindings } }
      { k with arena := k.arena.modifyFrame f fun frame =>
        { frame with bindings := change frame.bindings } } := by
  have hquiet : Arena.Quiet k.arena (k.arena.modifyFrame f fun frame =>
      { frame with bindings := change frame.bindings }) :=
    Arena.quiet_modifyFrame f (fun _ => rfl) (fun _ => rfl) (fun _ h => h)
      fun frame => hchange frame.bindings
  constructor
  case size => exact hquiet.size.trans h.size
  case slots => exact h.slots
  case kept =>
    intro g hg
    obtain ⟨old, hold, houter⟩ := h.kept g hg
    obtain ⟨new, hnew, hsame, -⟩ := hquiet.frame g old hold
    exact ⟨new, hnew, hsame.trans houter⟩
  case bindings =>
    intro g hg
    have hold := h.bindings g hg
    change (Arena.frame? _ (c.slot g)).map _ = _
    rw [Arena.frame?_modifyFrame, Arena.frame?_modifyFrame]
    by_cases heq : g = f
    · subst heq
      rw [if_pos rfl, if_pos rfl, Option.map_map, Option.map_map]
      have hchanged := congrArg (Option.map change) hold
      rwa [Option.map_map, Option.map_map] at hchanged
    · rw [if_neg (fun hslot => heq (ht.slot_inj g f hg hf hslot)),
        if_neg heq, hold]

theorem child (h : Agrees l c k) (ht : Tracks l c) {outer : Nat}
    (houter : l.Reachable outer) :
    Agrees (l.after (.child outer : Call α))
      { c with
        arena := (c.arena.child (c.slot outer)).2
        frames := c.frames ++ [(c.arena.child (c.slot outer)).1] }
      { k with
        arena := (k.arena.fresh (k.slot outer)).2
        frames := k.frames ++ [(k.arena.fresh (k.slot outer)).1] } := by
  have hkeptOuter := h.slot_eq (ht.sound.reachable_made houter)
  have hfresh : ∀ f, (k.arena.fresh (k.slot outer)).2.frame? f =
      if f = l.outers.length then some { outer := some outer }
      else k.arena.frame? f := by
    intro f
    rw [hkeptOuter, ← h.size]
    rcases Nat.lt_trichotomy f k.arena.frames.size with hlt | heq | hgt
    · simp [Arena.fresh, Arena.frame?, Array.getD, Array.getElem_push, hlt,
        Nat.ne_of_lt hlt, Nat.lt_succ_of_lt hlt]
    · subst heq
      simp [Arena.fresh, Arena.frame?, Array.getD]
    · simp [Arena.fresh, Arena.frame?, Array.getD, Nat.ne_of_gt hgt,
        Nat.not_lt.mpr hgt, Nat.not_lt.mpr (Nat.le_of_lt hgt)]
  constructor
  case size => simp [Arena.fresh, Ledger.after, h.size]
  case slots =>
    simp [Arena.fresh, Ledger.after, h.slots, h.size, List.range_succ]
  case kept =>
    intro f hf
    rw [Ledger.outer?_child, hfresh]
    split
    · exact ⟨_, rfl, rfl⟩
    · next hne =>
      simp only [Ledger.after, List.length_append, List.length_singleton] at hf
      exact h.kept f (Nat.lt_of_le_of_ne (Nat.le_of_lt_succ hf) hne)
  case bindings =>
    intro f hf
    rw [hfresh, ht.tidy.frame?_child]
    rcases ht.sound.reachable_child houter hf with rfl | hf
    · rw [ht.slot_new, if_pos rfl, if_pos rfl]
      rfl
    · have hmade := ht.sound.reachable_made hf
      rw [ht.slot_old _ _ hmade, if_neg, if_neg (Nat.ne_of_lt hmade),
        h.bindings f hf]
      intro heq
      obtain ⟨frame, hframe, -⟩ := ht.frame f hf
      have hempty := ht.tidy.frame?_child_slot (c.slot outer)
      simp [← heq, hframe] at hempty

theorem pin (h : Agrees l c k) {f : Nat} (hf : l.Reachable f) :
    Agrees (l.after (.pin f : Call α))
      { c with
        arena := (c.arena.pin (c.slot f)).2
        holds := c.holds ++ [(c.arena.pin (c.slot f)).1] }
      { k with
        arena := (k.arena.pin (k.slot f)).2
        holds := k.holds ++ [(k.arena.pin (k.slot f)).1] } := by
  refine h.of_same (m := l.after (.pin f : Call α)) rfl ?_ ?_ ?_ ?_ ?_
  · exact fun g => Ledger.reachable_pin hf
  · exact fun g _ => Arena.bindings_pin _ _
  · exact Arena.quiet_pin _
  · rfl
  · exact fun g => Arena.bindings_pin _ _

/-- What is left in the recycling arena binds what it bound before. -/
theorem of_survivors {m : Ledger} {b : Arena α} (h : Agrees l c k)
    (houters : m.outers = l.outers)
    (hreach : ∀ f, m.Reachable f → l.Reachable f)
    (ht : Tracks m { c with arena := b })
    (hsurvives : ∀ id new, b.frame? id = some new →
      ∃ old, c.arena.frame? id = some old ∧ new.bindings = old.bindings) :
    Agrees m { c with arena := b } k := by
  refine h.of_same houters hreach ?_ (Arena.Quiet.refl _) rfl (fun _ => rfl)
  intro f hf
  obtain ⟨new, hnew, -⟩ := ht.frame f hf
  obtain ⟨old, hold, hsame⟩ := hsurvives _ new hnew
  rw [hnew, Option.map_some, hsame]
  exact ((congrArg (Option.map (·.bindings)) hold).trans rfl).symm

end Agrees

/-! ### Sequences of calls -/

/-- One call: the answers are the same, and the invariant is kept. -/
theorem step_agrees (ht : Tracks l c) (ha : Agrees l c k) {call : Call α}
    (hpermit : l.Permits call) :
    (c.step recycling call).1 = (k.step keeping call).1 ∧
      Tracks (l.after call) (c.step recycling call).2 ∧
      Agrees (l.after call) (c.step recycling call).2
        (k.step keeping call).2 := by
  cases call with
  | child outer => exact ⟨rfl, ht.child hpermit, ha.child ht hpermit⟩
  | pin f => exact ⟨rfl, ht.pin hpermit, ha.pin hpermit⟩
  | clone hold =>
    have hmodify := ht.modify_hold hpermit (· + 1)
      (fun n m _ _ => by omega)
    refine ⟨rfl, hmodify, ?_⟩
    exact ha.of_same rfl
      (fun f => Ledger.reachable_modify_holds (· + 1) hpermit)
      (fun _ _ => rfl) (Arena.quiet_claim _) rfl (fun _ => rfl)
  | drop hold =>
    have hmodify := ht.modify_hold hpermit (· - 1)
      (fun n m hn hm => by omega)
    refine ⟨rfl, hmodify, ?_⟩
    exact ha.of_same rfl
      (fun f => Ledger.reachable_modify_holds (· - 1) hpermit)
      (fun _ _ => rfl) (Arena.quiet_drop _) rfl (fun _ => rfl)
  | release f =>
    have hrelease := ht.release hpermit.1 hpermit.2
    refine ⟨rfl, hrelease, ?_⟩
    exact ha.of_survivors rfl (fun g => Ledger.reachable_release) hrelease
      (fun _ _ hnew => Arena.bindings_of_frame?_release hnew)
  | sweep =>
    refine ⟨rfl, ht.sweep, ?_⟩
    exact ha.of_survivors rfl (fun _ hg => hg) ht.sweep
      (fun _ new hnew => ⟨new, (Arena.frame?_of_frame?_sweep hnew).2, rfl⟩)
  | set f name value =>
    have hslot := ha.slot_eq (ht.sound.reachable_made hpermit)
    have hput (bindings : Bindings α) (hbound : bindings.Bound) :=
      hbound.put { name, value, constant := false }
    refine ⟨rfl, ht.of_bindings _ hput, ?_⟩
    simp only [Client.step, Arena.set, Arena.bind, hslot]
    exact ha.of_bindings ht hpermit hput
  | setConstant f name value =>
    have hslot := ha.slot_eq (ht.sound.reachable_made hpermit)
    have hput (bindings : Bindings α) (hbound : bindings.Bound) :=
      hbound.put { name, value, constant := true }
    refine ⟨rfl, ht.of_bindings _ hput, ?_⟩
    simp only [Client.step, Arena.setConstant, Arena.bind, hslot]
    exact ha.of_bindings ht hpermit hput
  | update f name value =>
    have hresolve := ha.resolve?_eq ht hpermit name
    simp only [Client.step, Arena.update, hresolve]
    cases hfound : k.arena.resolve? (k.slot f) name with
    | none => exact ⟨rfl, ht, ha⟩
    | some found =>
      obtain ⟨g, b⟩ := found
      have hslot := ha.slot_eq (ht.sound.reachable_made hpermit)
      rw [hslot] at hfound
      have hg : l.Reachable g :=
        hpermit.around (ha.around_of_resolveWithin ht hpermit hfound)
      have hrebind (bindings : Bindings α) (hbound : bindings.Bound) :=
        hbound.rebind name value
      exact ⟨rfl, ht.of_bindings _ hrebind, ha.of_bindings ht hg hrebind⟩
  | get f name =>
    refine ⟨?_, ht, ha⟩
    simp only [Client.step, Arena.get?, ha.resolve?_eq ht hpermit name,
      Option.map_map]
    rfl
  | isConstant f name =>
    refine ⟨?_, ht, ha⟩
    simp only [Client.step, Arena.isConstant, ha.resolve?_eq ht hpermit name,
      Option.any_map]
  | isLocalConstant f name =>
    refine ⟨?_, ht, ha⟩
    have hslot := ha.slot_eq (ht.sound.reachable_made hpermit)
    have hany := congrArg
      (Option.any fun bindings => bindings.constants.contains name)
      (ha.bindings f hpermit)
    rw [Option.any_map, Option.any_map] at hany
    simp only [Client.step, Arena.isLocalConstant, hslot]
    exact congrArg Answer.truth hany

theorem run_agrees (ht : Tracks l c) (ha : Agrees l c k)
    {calls : List (Call α)} (hpermits : l.PermitsAll calls) :
    (c.run recycling calls).1 = (k.run keeping calls).1 ∧
      Tracks (l.afterAll calls) (c.run recycling calls).2 ∧
      Agrees (l.afterAll calls) (c.run recycling calls).2
        (k.run keeping calls).2 := by
  induction calls generalizing l c k with
  | nil => exact ⟨rfl, ht, ha⟩
  | cons call calls ih =>
    obtain ⟨hanswer, ht', ha'⟩ := step_agrees ht ha hpermits.1
    obtain ⟨hanswers, ht'', ha''⟩ := ih ht' ha' hpermits.2
    refine ⟨?_, ht'', ha''⟩
    simp only [Client.run]
    rw [hanswer, hanswers]

/-- The client of a recycling arena gets the answers that the client of an arena
gets that keeps every frame.  At every moment the reachable frames are there,
each in a slot of its own and with the names it has in the other arena; every
frame has a chain that meets no frame twice and ends at the root; and the walks
along it end by themselves, for a larger bound changes nothing. -/
theorem recycling_refines_keeping (calls : List (Call α))
    (hpermits : Ledger.start.PermitsAll calls) :
    let recycled := Client.start.run recycling calls
    let kept := Client.start.run keeping calls
    let l := Ledger.start.afterAll calls
    let a := recycled.2.arena
    recycled.1 = kept.1 ∧
    (∀ f, l.Reachable f → ∃ frame keptFrame,
      a.frame? (recycled.2.slot f) = some frame ∧
      kept.2.arena.frame? (kept.2.slot f) = some keptFrame ∧
      frame.bindings = keptFrame.bindings) ∧
    (∀ f g, l.Reachable f → l.Reachable g →
      recycled.2.slot f = recycled.2.slot g → f = g) ∧
    (∀ id frame, a.frame? id = some frame →
      (∃ chain, a.Chain id chain ∧ chain.Nodup) ∧ a.WalksEnd id) := by
  obtain ⟨hanswers, ht, ha⟩ := run_agrees tracks_start agrees_start hpermits
  refine ⟨hanswers, ?_, ht.slot_inj, ?_⟩
  · intro f hf
    obtain ⟨frame, hframe, -⟩ := ht.frame f hf
    have hmade := ht.sound.reachable_made hf
    obtain ⟨keptFrame, hkept, -⟩ := ha.kept f hmade
    have hbindings := ha.bindings f hf
    rw [hframe, hkept, Option.map_some, Option.map_some,
      Option.some.injEq] at hbindings
    exact ⟨frame, keptFrame, hframe, by rwa [ha.slot_eq hmade], hbindings⟩
  · intro id frame hframe
    obtain ⟨chain, hchain⟩ := ht.rooted.chain id frame hframe
    exact ⟨⟨chain, hchain, hchain.nodup⟩, hchain.walksEnd⟩

/-- A frame that was pinned and released is found as long as a frame inside it
runs, and its slot is used again after that. -/
def captureAndRecycle : List (Call Nat) :=
  [.child 0, .set 1 "n" 10, .pin 1, .release 1, .child 1, .drop 0, .sweep,
    .get 2 "n", .release 2, .sweep, .child 0, .get 3 "n"]

theorem recycling_refines_keeping_captureAndRecycle :
    Ledger.start.PermitsAll captureAndRecycle ∧
      (Client.start.run recycling captureAndRecycle).1 =
        (Client.start.run keeping captureAndRecycle).1 ∧
      (Client.start.run recycling captureAndRecycle).2.frames = [0, 1, 2, 1] := by
  have hpermits : Ledger.start.PermitsAll captureAndRecycle := by
    refine ⟨Ledger.reachable_root _, Ledger.reachable_of_running (by decide),
      Ledger.reachable_of_running (by decide), ⟨by decide, ?_⟩,
      Ledger.Anchored.reachable (Or.inr (Or.inr ⟨1, by decide, by decide⟩)),
      ⟨1, 1, rfl, by decide⟩, trivial,
      Ledger.reachable_of_running (by decide), ⟨by decide, ?_⟩, trivial,
      Ledger.reachable_root _, Ledger.reachable_of_running (by decide), trivial⟩
    · exact fun inner hinner _ => List.mem_singleton.mp hinner
    · exact fun inner hinner _ => List.mem_singleton.mp hinner
  exact ⟨hpermits, (recycling_refines_keeping _ hpermits).1, by decide⟩

end Script.Scope
