import Script.Proofs.Scope.Acyclic
import Script.Proofs.Scope.Backlog
import Script.Proofs.Scope.Reach

/-!
# What a sweep does

A sweep marks the root and follows the outer chains of all needed frames, each up to the
first frame that an earlier walk has marked.  It marks no frame that lies around none of
them, and it misses no frame that does.  So what it frees is settled by the outer chains
alone, whatever the order of the slots.
-/

namespace Script.Scope

namespace Arena

variable {α : Type} {a : Arena α}

/-! ### What is marked lies around a needed frame -/

theorem marked_of_markWithin {start : FrameId} {n : Nat} {id slot : FrameId}
    {marks : Array Bool}
    (hmark : (markWithin a start n id marks).getD slot false = true) :
    marks.getD slot false = true ∨ a.Around id slot := by
  induction n generalizing id marks with
  | zero => exact Or.inl hmark
  | succ n ih =>
    -- The walk has marked `id` itself before it goes on.
    have hfirst : (marks.setIfInBounds id true).getD slot false = true →
        marks.getD slot false = true ∨ a.Around id slot := by
      intro hset
      rcases getD_setIfInBounds_cases hset with rfl | hearlier
      · exact Or.inr .refl
      · exact Or.inl hearlier
    unfold markWithin at hmark
    split at hmark
    · exact Or.inl hmark
    · dsimp only at hmark
      split at hmark
      · exact hfirst hmark
      · next outer houter =>
        rcases ih hmark with hset | haround
        · exact hfirst hset
        · exact Or.inr (.head (inside_iff_outer.mpr houter) haround)

theorem marked_of_marksAfter {slots : List FrameId} {marks : Array Bool}
    {slot : FrameId} (hmark : (a.marksAfter slots marks).getD slot false = true) :
    marks.getD slot false = true ∨ ∃ inner ∈ slots, a.Around inner slot := by
  induction slots generalizing marks with
  | nil => exact Or.inl hmark
  | cons first slots ih =>
    rcases ih hmark with hearlier | ⟨inner, hinner, haround⟩
    · refine (marked_of_markWithin hearlier).imp_right fun haround => ?_
      exact ⟨first, List.mem_cons_self, haround⟩
    · exact Or.inr ⟨inner, List.mem_cons_of_mem _ hinner, haround⟩

theorem around_of_marks {slot : FrameId} (hmark : a.marks.getD slot false = true) :
    slot = root ∨ ∃ inner, a.isNeeded inner = true ∧ a.Around inner slot := by
  rw [marks_eq_marksAfter] at hmark
  rcases marked_of_marksAfter hmark with hstart | ⟨inner, hinner, haround⟩
  · left
    rcases getD_setIfInBounds_cases hstart with hroot | hnone
    · exact hroot
    · by_cases hsize : slot < a.frames.size <;> simp [Array.getD, hsize] at hnone
  · exact Or.inr ⟨inner, (List.mem_filter.mp hinner).2, haround⟩

/-! ### What lies around a needed frame is marked -/

theorem reachable_of_around {inner id : FrameId} (hneeded : a.isNeeded inner = true)
    (haround : a.Around inner id) (hid : (a.frame? id).isSome) : a.Reachable id := by
  induction haround with
  | refl => exact .needed hneeded
  | tail _ hinside ih =>
    obtain ⟨frame, hframe, houter⟩ := hinside
    exact .around (ih (by rw [hframe, Option.isSome_some])) hframe houter hid

/-- The marked frames are the root and all frames on the outer chains of needed ones. -/
theorem Tidy.marks_iff (htidy : a.Tidy) {id : FrameId} (hid : (a.frame? id).isSome) :
    a.marks.getD id false = true ↔
      id = root ∨ ∃ inner, a.isNeeded inner = true ∧ a.Around inner id := by
  refine ⟨around_of_marks, ?_⟩
  rintro (rfl | ⟨inner, hneeded, haround⟩)
  · exact htidy.marks_of_reachable htidy.reachable_root
  · exact htidy.marks_of_reachable (reachable_of_around hneeded haround hid)

/-! ### What is left and what is freed -/

theorem isNeeded_iff {id : FrameId} :
    a.isNeeded id = true ↔
      ∃ frame, a.frame? id = some frame ∧
        (frame.exited = false ∨
          ∃ hold, frame.hold = some hold ∧ 0 < a.holds.getD hold 0) := by
  simp [isNeeded, isHeld, Option.any_eq_true]

theorem Tidy.isSome_frame?_sweep_iff (htidy : a.Tidy) (id : FrameId) :
    (a.sweep.frame? id).isSome ↔
      (a.frame? id).isSome ∧
        (id = root ∨ ∃ inner, a.isNeeded inner = true ∧ a.Around inner id) := by
  rw [frame?_sweep]
  cases hframe : a.frame? id with
  | none => simp
  | some frame =>
    rw [← htidy.marks_iff (by rw [hframe, Option.isSome_some])]
    cases a.marks.getD id false <;> simp

theorem pairwise_dead (a : Arena α) : a.dead.Pairwise (· < ·) :=
  List.Pairwise.filter _ List.pairwise_lt_range

/-- The dead slots are the ones that a sweep empties. -/
theorem mem_dead_iff {id : FrameId} :
    id ∈ a.dead ↔ (a.frame? id).isSome ∧ a.sweep.frame? id = none := by
  rw [mem_dead, frame?_sweep, and_comm]
  refine and_congr_right fun hsome => ?_
  cases a.marks.getD id false with
  | false => simp
  | true => simpa using Option.isSome_iff_ne_none.mp hsome

theorem Counted.exited_sweep (hcounted : a.Counted) :
    a.sweep.exited = a.sweep.exitedSlots.card :=
  hcounted.settled_sweep.exited_eq

end Arena

variable {α : Type}

/-- Every arena that a sequence of calls leads to is counted, and so is the one that
a call sweeps on its way. -/
theorem Client.counted_of_swept (calls : List (Call α)) {call : Call α} {a : Arena α}
    (hswept : ((start : Client α).run recycling calls).2.swept? call = some a) :
    a.Counted := by
  obtain ⟨hsettled, -⟩ :=
    run_settled (c := (start : Client α)) 0 Arena.settled_new rfl calls
  rcases step_settled hsettled call with ⟨b, hb, hcounted, -⟩ | ⟨hkept, -⟩
  · rw [hswept, Option.some.injEq] at hb
    exact hb ▸ hcounted
  · rw [hswept] at hkept
    cases hkept

namespace Arena

/-- The walks of a sweep end by themselves in an acyclic arena.  It leaves the root and
the frames on the outer chain of a frame that has not exited or that somebody else has a
hold on, each as it was.  It puts the slots of the others behind the free ones, of which
the last is used first, in ascending order, and counts the exited frames that are left.
Whatever calls are made of an arena, what they sweep is counted. -/
theorem sweep_exact :
    (∀ (calls : List (Call α)) (call : Call α) (a : Arena α),
      ((Client.start : Client α).run recycling calls).2.swept? call = some a →
      a.Counted) ∧
    ∀ a : Arena α, a.Counted → a.Acyclic →
      (∀ n, a.frames.size < n → ∀ slot marks,
        markWithin a slot n slot marks =
          markWithin a slot (a.frames.size + 1) slot marks) ∧
      (∀ id, (a.sweep.frame? id).isSome ↔
        id = root ∨ (a.frame? id).isSome ∧
          ∃ inner frame, a.frame? inner = some frame ∧
            (frame.exited = false ∨
              ∃ hold, frame.hold = some hold ∧ 0 < a.holds.getD hold 0) ∧
            a.Around inner id) ∧
      (∀ id frame, a.sweep.frame? id = some frame → a.frame? id = some frame) ∧
      (∃ freed : List FrameId, freed.Pairwise (· < ·) ∧
        (∀ slot, slot ∈ freed ↔
          (a.frame? slot).isSome ∧ a.sweep.frame? slot = none) ∧
        a.sweep.free.reverse = a.free.reverse ++ freed) ∧
      a.sweep.exited = a.sweep.exitedSlots.card := by
  refine ⟨fun calls call a => Client.counted_of_swept calls, ?_⟩
  intro a hcounted hacyclic
  refine ⟨?_, ?_, ?_, ?_, hcounted.exited_sweep⟩
  · exact fun n hn slot marks => hacyclic.markWithin_eq slot slot marks hn
  · intro id
    obtain ⟨rootFrame, hroot, -⟩ := hcounted.root_running
    have hneeded : (∃ inner, a.isNeeded inner = true ∧ a.Around inner id) ↔
        ∃ inner frame, a.frame? inner = some frame ∧
          (frame.exited = false ∨
            ∃ hold, frame.hold = some hold ∧ 0 < a.holds.getD hold 0) ∧
          a.Around inner id := by
      simp only [isNeeded_iff, ← exists_and_right, and_assoc]
    rw [hcounted.isSome_frame?_sweep_iff, and_or_left, hneeded]
    refine or_congr_left ⟨And.right, fun hid => ⟨?_, hid⟩⟩
    rw [hid, hroot, Option.isSome_some]
  · exact fun id frame hframe => (frame?_of_frame?_sweep hframe).2
  · refine ⟨a.dead, a.pairwise_dead, fun slot => mem_dead_iff, ?_⟩
    rw [free_sweep, List.reverse_append, List.reverse_reverse]

/-- Of the frames that have exited, the one with an owner stays, and the two without
one are freed, also the one inside the frame that stays. -/
theorem sweep_exact_heldElsewhere :
    let calls : List (Call Nat) :=
      [.child 0, .child 0, .child 2, .child 0, .pin 1, .pin 2, .pin 3, .drop 0,
        .drop 2, .release 4, .release 1, .release 2, .release 3]
    let c := (Client.start.run recycling calls).2
    c.swept? .sweep = some c.arena ∧ c.arena.Counted ∧ c.arena.Acyclic ∧
      (c.arena.sweep.frame? 2).isSome ∧ c.arena.sweep.frame? 3 = none ∧
      c.arena.sweep.free.reverse = [4, 1, 3] ∧ c.arena.sweep.exited = 1 ∧
      c.arena.sweep.exitedSlots.card = 1 := by
  intro calls c
  have hcounted : c.arena.Counted := sweep_exact.1 calls .sweep c.arena rfl
  have hacyclic : c.arena.Acyclic := acyclic_of_descending (by decide)
  obtain ⟨-, hleft, -, -, hexited⟩ := sweep_exact.2 c.arena hcounted hacyclic
  have hheld : (c.arena.sweep.frame? 2).isSome :=
    (hleft 2).mpr (Or.inr ⟨by decide, 2, _, rfl, Or.inr ⟨1, rfl, by decide⟩, .refl⟩)
  have hcount : c.arena.sweep.exited = 1 := by decide
  exact ⟨rfl, hcounted, hacyclic, hheld, by decide, by decide, hcount,
    hexited.symm.trans hcount⟩

end Arena

end Script.Scope
