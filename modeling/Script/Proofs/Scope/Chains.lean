import Script.Proofs.Scope.Reach
import Mathlib.Data.List.Perm.Subperm

/-!
# Chains of frames

The frames around a frame form a chain that ends at the root.  A chain meets no
frame twice, so it is no longer than the arena has slots, and the bounds on the
walks along it (`resolveWithin`, `pinWithin`, `markWithin`) are never reached.
-/

namespace Script.Scope.Arena

variable {α : Type} {a : Arena α}

/-- `chain` holds the frames from `id` outwards, up to the root. -/
inductive Chain (a : Arena α) : FrameId → List FrameId → Prop where
  | root {frame : Frame α} (hframe : a.frame? root = some frame)
      (houter : frame.outer = none) : Chain a root [root]
  | inside {id outer : FrameId} {frame : Frame α} {chain : List FrameId}
      (hframe : a.frame? id = some frame) (houter : frame.outer = some outer)
      (hchain : Chain a outer chain) : Chain a id (id :: chain)

theorem Chain.unique {id : FrameId} {left right : List FrameId}
    (hleft : Chain a id left) (hright : Chain a id right) : left = right := by
  induction hleft generalizing right with
  | root hframe houter =>
    cases hright with
    | root => rfl
    | inside hframe' houter' =>
      rw [hframe, Option.some.injEq] at hframe'
      subst hframe'
      simp [houter] at houter'
  | inside hframe houter _ ih =>
    cases hright with
    | root hframe' houter' =>
      rw [hframe, Option.some.injEq] at hframe'
      subst hframe'
      simp [houter] at houter'
    | inside hframe' houter' hchain' =>
      rw [hframe, Option.some.injEq] at hframe'
      subst hframe'
      rw [houter, Option.some.injEq] at houter'
      subst houter'
      rw [ih hchain']

/-- Every frame of a chain has a chain that is no longer. -/
theorem Chain.of_mem {id other : FrameId} {chain : List FrameId}
    (hchain : Chain a id chain) (hmem : other ∈ chain) :
    ∃ rest, Chain a other rest ∧ rest.length ≤ chain.length := by
  induction hchain with
  | root hframe houter =>
    rw [List.mem_singleton] at hmem
    subst other
    exact ⟨_, Chain.root hframe houter, Nat.le_refl _⟩
  | inside hframe houter hrest ih =>
    rcases List.mem_cons.mp hmem with rfl | hmem
    · exact ⟨_, Chain.inside hframe houter hrest, Nat.le_refl _⟩
    · obtain ⟨rest, hrest', hlength⟩ := ih hmem
      exact ⟨rest, hrest', Nat.le_succ_of_le hlength⟩

/-- No chain meets a frame twice. -/
theorem Chain.nodup {id : FrameId} {chain : List FrameId}
    (hchain : Chain a id chain) : chain.Nodup := by
  induction hchain with
  | root => exact List.nodup_singleton _
  | inside hframe houter hrest ih =>
    refine List.nodup_cons.mpr ⟨?_, ih⟩
    intro hmem
    obtain ⟨shorter, hshorter, hlength⟩ := hrest.of_mem hmem
    have hsame := (Chain.inside hframe houter hrest).unique hshorter
    rw [← hsame, List.length_cons] at hlength
    exact absurd hlength (by omega)

theorem Chain.first_frame {id : FrameId} {chain : List FrameId}
    (hchain : Chain a id chain) : ∃ frame, a.frame? id = some frame := by
  cases hchain with
  | root hframe => exact ⟨_, hframe⟩
  | inside hframe => exact ⟨_, hframe⟩

theorem Chain.frame {id other : FrameId} {chain : List FrameId}
    (hchain : Chain a id chain) (hmem : other ∈ chain) :
    ∃ frame, a.frame? other = some frame := by
  obtain ⟨_, hother, -⟩ := hchain.of_mem hmem
  exact hother.first_frame

theorem Chain.length_le {id : FrameId} {chain : List FrameId}
    (hchain : Chain a id chain) : chain.length ≤ a.frames.size := by
  have hsub : chain ⊆ List.range a.frames.size := by
    intro other hmem
    obtain ⟨_, hframe⟩ := hchain.frame hmem
    exact List.mem_range.mpr (lt_size_of_frame? hframe)
  simpa using (List.Nodup.subperm hchain.nodup hsub).length_le

theorem Chain.length_pos {id : FrameId} {chain : List FrameId}
    (hchain : Chain a id chain) : 0 < chain.length := by
  cases hchain <;> simp

/-- A frame inside another has a chain that is longer by one. -/
theorem Chain.outer {id outer : FrameId} {chain : List FrameId}
    {frame : Frame α} (hchain : Chain a id chain)
    (hframe : a.frame? id = some frame) (houter : frame.outer = some outer) :
    ∃ rest, Chain a outer rest ∧ rest.length + 1 = chain.length := by
  cases hchain with
  | root hframe' houter' =>
    rw [hframe, Option.some.injEq] at hframe'
    subst hframe'
    simp [houter] at houter'
  | inside hframe' houter' hrest =>
    rw [hframe, Option.some.injEq] at hframe'
    subst hframe'
    rw [houter, Option.some.injEq] at houter'
    subst houter'
    exact ⟨_, hrest, rfl⟩

/-- A chain stays one if its frames keep their outer frames. -/
theorem Chain.transfer {b : Arena α} {id : FrameId} {chain : List FrameId}
    (hchain : Chain a id chain)
    (hkeep : ∀ other ∈ chain, ∀ frame, a.frame? other = some frame →
      ∃ new, b.frame? other = some new ∧ new.outer = frame.outer) :
    Chain b id chain := by
  induction hchain with
  | root hframe houter =>
    obtain ⟨new, hnew, hsame⟩ := hkeep _ (by simp) _ hframe
    exact Chain.root hnew (hsame.trans houter)
  | inside hframe houter _ ih =>
    obtain ⟨new, hnew, hsame⟩ := hkeep _ (by simp) _ hframe
    refine Chain.inside hnew (hsame.trans houter) (ih ?_)
    exact fun other hmem => hkeep other (List.mem_cons_of_mem _ hmem)

/-! ### The walks reach the end of a chain -/

/-- A walk that may visit the whole chain finds what a longer one finds. -/
theorem Chain.resolveWithin_eq {id : FrameId} {chain : List FrameId}
    (hchain : Chain a id chain) (name : String) {n : Nat}
    (hn : chain.length ≤ n) :
    resolveWithin a name n id = resolveWithin a name chain.length id := by
  induction hchain generalizing n with
  | root hframe houter =>
    obtain ⟨m, rfl⟩ := Nat.exists_eq_add_of_le' hn
    simp [resolveWithin, hframe, houter]
  | inside hframe houter _ ih =>
    obtain ⟨m, rfl⟩ := Nat.exists_eq_add_of_le' hn
    simp only [List.length_cons, ← Nat.add_assoc, resolveWithin, hframe, houter]
    split
    · rfl
    · exact ih (Nat.le_add_left _ _)

theorem Chain.pinWithin_eq {id : FrameId} {chain : List FrameId}
    (hchain : Chain a id chain) {n : Nat} (hn : chain.length ≤ n) :
    pinWithin n id a = pinWithin chain.length id a := by
  -- Pinning changes the arena on the way, but not the chain ahead.
  suffices hwalk : ∀ b : Arena α,
      (∀ other, (a.frame? other).map (·.outer) =
        (b.frame? other).map (·.outer)) →
      pinWithin n id b = pinWithin chain.length id b from hwalk a fun _ => rfl
  induction hchain generalizing n with
  | root hframe houter =>
    intro b hsame
    obtain ⟨m, rfl⟩ := Nat.exists_eq_add_of_le' hn
    have hroot := hsame Arena.root
    rw [hframe, Option.map_some, houter] at hroot
    obtain ⟨frame, hframe', houter'⟩ := Option.map_eq_some_iff.mp hroot.symm
    simp [pinWithin, hframe', houter']
  | @inside id outer frame chain hframe houter _ ih =>
    intro b hsame
    obtain ⟨m, rfl⟩ := Nat.exists_eq_add_of_le' hn
    have hid := hsame id
    rw [hframe, Option.map_some, houter] at hid
    obtain ⟨frame', hframe', houter'⟩ := Option.map_eq_some_iff.mp hid.symm
    simp only [List.length_cons, ← Nat.add_assoc, pinWithin, hframe', houter']
    split
    · rfl
    · apply ih (Nat.le_add_left _ _)
      intro other
      rw [hsame, frame?_modifyFrame]
      split
      · next heq =>
        subst heq
        simp [hframe']
      · rfl

theorem Chain.markWithin_eq {id : FrameId} {chain : List FrameId}
    (hchain : Chain a id chain) (start : FrameId) (marks : Array Bool)
    {n : Nat} (hn : chain.length ≤ n) :
    markWithin a start n id marks =
      markWithin a start chain.length id marks := by
  induction hchain generalizing n marks with
  | root hframe houter =>
    obtain ⟨m, rfl⟩ := Nat.exists_eq_add_of_le' hn
    simp [markWithin, hframe, houter]
  | inside hframe houter _ ih =>
    obtain ⟨m, rfl⟩ := Nat.exists_eq_add_of_le' hn
    simp only [List.length_cons, ← Nat.add_assoc, markWithin, hframe, houter,
      Option.bind_some]
    split
    · rfl
    · exact ih _ (Nat.le_add_left _ _)

/-- The walks from a frame outwards end by themselves: looking up a name,
pinning and marking do the same under every bound that is not smaller. -/
structure WalksEnd (a : Arena α) (id : FrameId) : Prop where
  resolve : ∀ name n, a.frames.size ≤ n →
    resolveWithin a name n id = a.resolve? id name
  pin : ∀ n, a.frames.size ≤ n →
    pinWithin n id (a.claimFrame id).2 = (a.pin id).2
  mark : ∀ marks n, a.frames.size ≤ n →
    markWithin a id n id marks = markWithin a id (a.frames.size + 1) id marks

theorem Chain.walksEnd {id : FrameId} {chain : List FrameId}
    (hchain : Chain a id chain) : WalksEnd a id := by
  have hlength := hchain.length_le
  have hclaimed : Chain (a.claimFrame id).2 id chain := by
    apply hchain.transfer
    intro other _ frame hframe
    obtain ⟨new, hnew, houter, -⟩ :=
      (quiet_claimFrame (a := a) id).frame other frame hframe
    exact ⟨new, hnew, houter⟩
  refine ⟨?_, ?_, ?_⟩
  · intro name n hn
    exact (hchain.resolveWithin_eq name (Nat.le_trans hlength hn)).trans
      (hchain.resolveWithin_eq name hlength).symm
  · intro n hn
    exact (hclaimed.pinWithin_eq (Nat.le_trans hlength hn)).trans
      (hclaimed.pinWithin_eq hclaimed.length_le).symm
  · intro marks n hn
    exact (hchain.markWithin_eq id marks (Nat.le_trans hlength hn)).trans
      (hchain.markWithin_eq id marks (Nat.le_succ_of_le hlength)).symm

/-! ### Arenas whose chains are whole -/

def IsPinned (a : Arena α) (id : FrameId) : Prop :=
  ∃ frame, a.frame? id = some frame ∧ frame.pinned = true

/-- Every frame has a chain, and what is around a pinned frame is pinned. -/
structure Rooted (a : Arena α) : Prop where
  chain : ∀ id frame, a.frame? id = some frame → ∃ chain, Chain a id chain
  pinned_outer : ∀ id frame outer, a.frame? id = some frame →
    frame.pinned = true → frame.outer = some outer → a.IsPinned outer

theorem rooted_new : (new : Arena α).Rooted where
  chain := by
    intro id frame hframe
    have hid : id = 0 := Nat.lt_one_iff.mp (lt_size_of_frame? hframe)
    subst id
    exact ⟨[root], Chain.root rfl rfl⟩
  pinned_outer := by
    intro id frame outer hframe _ houter
    have hid : id = 0 := Nat.lt_one_iff.mp (lt_size_of_frame? hframe)
    subst id
    cases hframe
    cases houter

/-- The root is inside nothing, for else its chain would meet it twice. -/
theorem Rooted.root_outer (hrooted : a.Rooted) {frame : Frame α}
    (hframe : a.frame? root = some frame) : frame.outer = none := by
  obtain ⟨chain, hchain⟩ := hrooted.chain root frame hframe
  have hends : ∀ {id : FrameId} {chain : List FrameId},
      Chain a id chain → root ∈ chain := by
    intro id chain hchain
    induction hchain with
    | root => simp
    | inside _ _ _ ih => exact List.mem_cons_of_mem _ ih
  cases hchain with
  | root hframe' houter =>
    rw [hframe, Option.some.injEq] at hframe'
    subst hframe'
    exact houter
  | inside hframe' houter hrest =>
    have hnodup := (Chain.inside hframe' houter hrest).nodup
    exact absurd (hends hrest) (List.nodup_cons.mp hnodup).1

/-- Only outer frames and pins matter. -/
theorem Rooted.congr {b : Arena α} (hrooted : a.Rooted)
    (hsame : ∀ id, (b.frame? id).map (fun frame => (frame.outer, frame.pinned)) =
      (a.frame? id).map (fun frame => (frame.outer, frame.pinned))) :
    b.Rooted := by
  have hforth : ∀ id old, a.frame? id = some old →
      ∃ new, b.frame? id = some new ∧ new.outer = old.outer ∧
        new.pinned = old.pinned := by
    intro id old hold
    have hid := hsame id
    rw [hold, Option.map_some] at hid
    obtain ⟨new, hnew, heq⟩ := Option.map_eq_some_iff.mp hid
    exact ⟨new, hnew, (Prod.mk.inj heq).1, (Prod.mk.inj heq).2⟩
  have hback : ∀ id new, b.frame? id = some new →
      ∃ old, a.frame? id = some old ∧ new.outer = old.outer ∧
        new.pinned = old.pinned := by
    intro id new hnew
    have hid := hsame id
    rw [hnew, Option.map_some] at hid
    obtain ⟨old, hold, heq⟩ := Option.map_eq_some_iff.mp hid.symm
    exact ⟨old, hold, (Prod.mk.inj heq).1.symm, (Prod.mk.inj heq).2.symm⟩
  constructor
  · intro id new hnew
    obtain ⟨old, hold, -⟩ := hback id new hnew
    obtain ⟨chain, hchain⟩ := hrooted.chain id old hold
    refine ⟨chain, hchain.transfer ?_⟩
    intro other _ frame hframe
    obtain ⟨new, hnew, houter, -⟩ := hforth other frame hframe
    exact ⟨new, hnew, houter⟩
  · intro id new outer hnew hpinned houter
    obtain ⟨old, hold, hsameOuter, hsamePinned⟩ := hback id new hnew
    obtain ⟨outerFrame, houterFrame, houterPinned⟩ :=
      hrooted.pinned_outer id old outer hold (hsamePinned ▸ hpinned)
        (hsameOuter ▸ houter)
    obtain ⟨newOuter, hnewOuter, -, hstill⟩ := hforth outer _ houterFrame
    exact ⟨newOuter, hnewOuter, hstill.trans houterPinned⟩

theorem Rooted.modifyFrame (hrooted : a.Rooted) (id : FrameId)
    {f : Frame α → Frame α} (houter : ∀ frame, (f frame).outer = frame.outer)
    (hpinned : ∀ frame, (f frame).pinned = frame.pinned) :
    (a.modifyFrame id f).Rooted := by
  apply hrooted.congr
  intro other
  rw [frame?_modifyFrame]
  split
  · next heq =>
    subst heq
    cases a.frame? other <;> simp [houter, hpinned]
  · rfl

theorem Rooted.of_frames_eq {b : Arena α} (hrooted : a.Rooted)
    (hframes : b.frames = a.frames) : b.Rooted :=
  hrooted.congr fun id => by rw [frame?_congr hframes]

theorem Rooted.claimFrame (hrooted : a.Rooted) (id : FrameId) :
    (a.claimFrame id).2.Rooted := by
  unfold Arena.claimFrame
  split
  · exact hrooted.of_frames_eq rfl
  · exact (hrooted.of_frames_eq (b := { a with holds := a.holds.push 1 })
      rfl).modifyFrame id (fun _ => rfl) (fun _ => rfl)
  · exact hrooted.of_frames_eq rfl

theorem Rooted.markExited (hrooted : a.Rooted) (id : FrameId) :
    (a.markExited id).Rooted :=
  (hrooted.modifyFrame id (f := fun frame => { frame with exited := true })
    (fun _ => rfl) (fun _ => rfl)).of_frames_eq rfl

theorem Rooted.child (hrooted : a.Rooted) (htidy : a.Tidy) {outer : FrameId}
    {outerFrame : Frame α} (houter : a.frame? outer = some outerFrame) :
    (a.child outer).2.Rooted := by
  have hslot := htidy.frame?_child_slot outer
  have hkeep : ∀ id frame, a.frame? id = some frame →
      (a.child outer).2.frame? id = some frame := by
    intro id frame hframe
    rw [htidy.frame?_child, if_neg, hframe]
    rintro rfl
    simp [hframe] at hslot
  have hchain : ∀ id frame, a.frame? id = some frame →
      ∃ chain, Chain (a.child outer).2 id chain := by
    intro id frame hframe
    obtain ⟨chain, hchain⟩ := hrooted.chain id frame hframe
    refine ⟨chain, hchain.transfer ?_⟩
    exact fun other _ frame hframe => ⟨frame, hkeep other frame hframe, rfl⟩
  constructor
  · intro id frame hframe
    rw [htidy.frame?_child] at hframe
    split at hframe
    next heq =>
      subst heq
      obtain ⟨chain, hchain⟩ := hchain outer outerFrame houter
      have hnew : (a.child outer).2.frame? (a.child outer).1 =
          some { outer := some outer } := by
        rw [htidy.frame?_child, if_pos rfl]
      exact ⟨_, Chain.inside hnew rfl hchain⟩
    next => exact hchain id frame hframe
  · intro id frame around hframe hpinned haround
    rw [htidy.frame?_child] at hframe
    split at hframe
    · cases hframe
      cases hpinned
    · obtain ⟨aroundFrame, haroundFrame, haroundPinned⟩ :=
        hrooted.pinned_outer id frame around hframe hpinned haround
      exact ⟨aroundFrame, hkeep around aroundFrame haroundFrame, haroundPinned⟩

/-- A frame on a chain, other than the first, is the outer frame of another. -/
theorem Chain.outer_of_mem {id other : FrameId} {chain : List FrameId}
    (hchain : Chain a id chain) (hmem : other ∈ chain) (hne : other ≠ id) :
    ∃ inner frame, a.frame? inner = some frame ∧
      frame.outer = some other := by
  induction hchain with
  | root => simp_all
  | @inside id outer frame chain hframe houter hrest ih =>
    rcases List.mem_cons.mp hmem with rfl | hmem
    · exact absurd rfl hne
    · by_cases heq : other = outer
      · subst other
        exact ⟨id, frame, hframe, houter⟩
      · exact ih hmem heq

theorem Rooted.freeSlot (hrooted : a.Rooted) {slot : FrameId}
    (hinnermost : ∀ id frame, a.frame? id = some frame →
      frame.outer ≠ some slot) : (a.freeSlot slot).Rooted := by
  have hkeep : ∀ id frame, id ≠ slot → a.frame? id = some frame →
      (a.freeSlot slot).frame? id = some frame := by
    intro id frame hne hframe
    rw [frame?_freeSlot, if_neg hne, hframe]
  have hbefore : ∀ id frame, (a.freeSlot slot).frame? id = some frame →
      id ≠ slot ∧ a.frame? id = some frame := by
    intro id frame hframe
    rw [frame?_freeSlot] at hframe
    split at hframe
    next => cases hframe
    next hne => exact ⟨hne, hframe⟩
  constructor
  · intro id frame hframe
    obtain ⟨hne, hold⟩ := hbefore id frame hframe
    obtain ⟨chain, hchain⟩ := hrooted.chain id frame hold
    refine ⟨chain, hchain.transfer ?_⟩
    intro other hmem otherFrame hotherFrame
    refine ⟨otherFrame, hkeep other otherFrame ?_ hotherFrame, rfl⟩
    rintro rfl
    obtain ⟨inner, innerFrame, hinner, houter⟩ :=
      hchain.outer_of_mem hmem (Ne.symm hne)
    exact hinnermost inner innerFrame hinner houter
  · intro id frame outer hframe hpinned houter
    obtain ⟨-, hold⟩ := hbefore id frame hframe
    obtain ⟨outerFrame, houterFrame, houterPinned⟩ :=
      hrooted.pinned_outer id frame outer hold hpinned houter
    refine ⟨outerFrame, hkeep outer outerFrame ?_ houterFrame, houterPinned⟩
    rintro rfl
    exact hinnermost id frame hold houter

/-! ### Pinning pins the whole chain -/

theorem IsPinned.modifyFrame {id other : FrameId}
    (hpinned : a.IsPinned other) {f : Frame α → Frame α}
    (hkeep : ∀ frame, frame.pinned = true → (f frame).pinned = true) :
    (a.modifyFrame id f).IsPinned other := by
  obtain ⟨frame, hframe, hpinned⟩ := hpinned
  unfold IsPinned
  rw [frame?_modifyFrame]
  split
  · next heq =>
    subst heq
    exact ⟨f frame, by simp [hframe], hkeep frame hpinned⟩
  · exact ⟨frame, hframe, hpinned⟩

/-- The walk goes on until what is around every pinned frame is pinned again;
on the way this fails only where the walk stands. -/
theorem pinWithin_pins {n : Nat} {id : FrameId} {chain : List FrameId}
    (hchain : Chain a id chain) (hn : chain.length ≤ n)
    (hbroken : ∀ inner frame outer, a.frame? inner = some frame →
      frame.pinned = true → frame.outer = some outer →
      a.IsPinned outer ∨ outer = id) :
    (pinWithin n id a).IsPinned id ∧
      ∀ inner frame outer, (pinWithin n id a).frame? inner = some frame →
        frame.pinned = true → frame.outer = some outer →
        (pinWithin n id a).IsPinned outer := by
  induction n generalizing a id chain with
  | zero => exact absurd hn (Nat.not_le.mpr hchain.length_pos)
  | succ n ih =>
    obtain ⟨frame, hframe⟩ := hchain.first_frame
    unfold pinWithin
    simp only [hframe]
    split
    next hpinned =>
      have hhere : a.IsPinned id := ⟨frame, hframe, hpinned⟩
      refine ⟨hhere, ?_⟩
      intro inner innerFrame outer hinner hinnerPinned houter
      rcases hbroken inner innerFrame outer hinner hinnerPinned houter with
        hpinned | rfl
      · exact hpinned
      · exact hhere
    next =>
      let b := a.modifyFrame id fun frame => { frame with pinned := true }
      have hhere : b.IsPinned id :=
        ⟨{ frame with pinned := true }, by simp [b, hframe], rfl⟩
      have hbroken' : ∀ inner innerFrame outer, b.frame? inner = some innerFrame →
          innerFrame.pinned = true → innerFrame.outer = some outer →
          b.IsPinned outer ∨ frame.outer = some outer := by
        intro inner innerFrame outer hinner hinnerPinned houter
        rw [frame?_modifyFrame] at hinner
        split at hinner
        · rw [hframe, Option.map_some, Option.some.injEq] at hinner
          subst hinner
          exact Or.inr houter
        · rcases hbroken inner innerFrame outer hinner hinnerPinned houter with
            hpinned | rfl
          · exact Or.inl (hpinned.modifyFrame fun _ _ => rfl)
          · exact Or.inl hhere
      cases hchain with
      | root hframe' houter' =>
        rw [hframe, Option.some.injEq] at hframe'
        subst hframe'
        simp only [houter']
        refine ⟨hhere, ?_⟩
        intro inner innerFrame outer hinner hinnerPinned houter
        rcases hbroken' inner innerFrame outer hinner hinnerPinned houter with
          hpinned | hnone
        · exact hpinned
        · simp [houter'] at hnone
      | @inside _ around frame' rest hframe' houter' hrest =>
        rw [hframe, Option.some.injEq] at hframe'
        subst hframe'
        simp only [houter']
        have hrest' : Chain b around rest := by
          apply hrest.transfer
          intro other _ otherFrame hother
          simp only [b, frame?_modifyFrame]
          split
          · next heq =>
            subst heq
            exact ⟨{ otherFrame with pinned := true }, by simp [hother], rfl⟩
          · exact ⟨otherFrame, hother, rfl⟩
        have hwalk := ih hrest' (Nat.le_of_succ_le_succ hn) (by
          intro inner innerFrame outer hinner hinnerPinned houter
          rcases hbroken' inner innerFrame outer hinner hinnerPinned houter with
            hpinned | hsome
          · exact Or.inl hpinned
          · rw [houter', Option.some.injEq] at hsome
            exact Or.inr hsome.symm)
        refine ⟨?_, hwalk.2⟩
        obtain ⟨hereFrame, hhereFrame, hherePinned⟩ := hhere
        obtain ⟨new, hnew, -, -, hstill⟩ :=
          (quiet_pinWithin n around b).frame id hereFrame hhereFrame
        exact ⟨new, hnew, hstill hherePinned⟩

theorem Rooted.quiet_chain {b : Arena α} (hrooted : a.Rooted)
    (hquiet : Quiet a b) {id : FrameId} {frame : Frame α}
    (hframe : b.frame? id = some frame) : ∃ chain, Chain b id chain := by
  obtain ⟨old, hold, -⟩ := hquiet.frame_before hframe
  obtain ⟨chain, hchain⟩ := hrooted.chain id old hold
  refine ⟨chain, hchain.transfer ?_⟩
  intro other _ otherFrame hother
  obtain ⟨new, hnew, houter, -⟩ := hquiet.frame other otherFrame hother
  exact ⟨new, hnew, houter⟩

/-- Pinning a frame keeps the chains whole, and the frame is pinned. -/
theorem Rooted.pin (hrooted : a.Rooted) {id : FrameId} {frame : Frame α}
    (hframe : a.frame? id = some frame) :
    (a.pin id).2.Rooted ∧ (a.pin id).2.IsPinned id := by
  have hclaimed := hrooted.claimFrame id
  obtain ⟨claimedFrame, hclaimedFrame, -⟩ :=
    (quiet_claimFrame (a := a) id).frame id frame hframe
  obtain ⟨chain, hchain⟩ := hclaimed.chain id claimedFrame hclaimedFrame
  have hpins := pinWithin_pins hchain hchain.length_le
    (fun inner innerFrame outer hinner hpinned houter => Or.inl
      (hclaimed.pinned_outer inner innerFrame outer hinner hpinned houter))
  refine ⟨⟨?_, hpins.2⟩, hpins.1⟩
  intro other otherFrame hother
  exact hclaimed.quiet_chain (quiet_pinWithin _ id _) hother

/-! ### Sweeping keeps whole chains -/

/-- What is around a marked frame is marked. -/
def MarksClosed (a : Arena α) (marks : Array Bool) : Prop :=
  ∀ inner frame outer, marks.getD inner false = true →
    a.frame? inner = some frame → frame.outer = some outer →
    marks.getD outer false = true

theorem Rooted.marks_closed (hrooted : a.Rooted) : MarksClosed a a.marks := by
  have hspread : MarksSpread a a.marks := by
    refine MarksSpread.marksAfter ?_ size_rootMark _
    intro inner frame outer hinner hframe houter _
    rcases getD_setIfInBounds_cases hinner with rfl | hinner
    · simp [hrooted.root_outer hframe] at houter
    · by_cases hsize : inner < a.frames.size <;>
        simp [Array.getD, hsize] at hinner
  intro inner frame outer hinner hframe houter
  refine hspread inner frame outer hinner hframe houter ?_
  obtain ⟨chain, hchain⟩ := hrooted.chain inner frame hframe
  obtain ⟨rest, hrest, -⟩ := hchain.outer hframe houter
  exact Option.isSome_iff_exists.mpr hrest.first_frame

theorem Rooted.sweep (hrooted : a.Rooted) : a.sweep.Rooted := by
  have hclosed := hrooted.marks_closed
  constructor
  · intro id frame hframe
    obtain ⟨hmark, hold⟩ := frame?_of_frame?_sweep hframe
    obtain ⟨chain, hchain⟩ := hrooted.chain id frame hold
    refine ⟨chain, ?_⟩
    clear hframe hold
    induction hchain with
    | root hframe houter =>
      exact Chain.root ((frame?_sweep_of_marks hmark).trans hframe) houter
    | inside hframe houter _ ih =>
      exact Chain.inside ((frame?_sweep_of_marks hmark).trans hframe) houter
        (ih (hclosed _ _ _ hmark hframe houter))
  · intro id frame outer hframe hpinned houter
    obtain ⟨hmark, hold⟩ := frame?_of_frame?_sweep hframe
    obtain ⟨outerFrame, houterFrame, houterPinned⟩ :=
      hrooted.pinned_outer id frame outer hold hpinned houter
    have houterMark := hclosed id frame outer hmark hold houter
    exact ⟨outerFrame, (frame?_sweep_of_marks houterMark).trans houterFrame,
      houterPinned⟩

end Script.Scope.Arena
