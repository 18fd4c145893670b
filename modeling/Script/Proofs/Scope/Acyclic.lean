import Script.Proofs.Scope.Slots
import Mathlib.Data.Finset.Card
import Mathlib.Logic.Relation

/-!
# Arenas without circles

A frame lies inside its outer frame.  In an acyclic arena no frame lies inside itself,
however far outwards one goes.  A walk outwards then meets no frame twice, so it is no
longer than the arena, and a bound on its length (`resolveWithin`, `markWithin`) that is
as large as the arena is never reached.
-/

namespace Script.Scope.Arena

variable {α : Type} {a : Arena α}

/-- The frame in the slot `inner` has the slot `outer` as its outer frame. -/
def Inside (a : Arena α) (inner outer : FrameId) : Prop :=
  ∃ frame, a.frame? inner = some frame ∧ frame.outer = some outer

/-- The slot `outer` is on the outer chain of `inner`, which starts with `inner`. -/
def Around (a : Arena α) : FrameId → FrameId → Prop :=
  Relation.ReflTransGen a.Inside

/-- No outer chain comes back to a frame. -/
def Acyclic (a : Arena α) : Prop :=
  ∀ id, ¬ Relation.TransGen a.Inside id id

/-- The slots that frames lie inside of are the ones that a walk goes on to. -/
theorem inside_iff_outer {inner outer : FrameId} :
    a.Inside inner outer ↔ (a.frame? inner).bind (·.outer) = some outer :=
  Option.bind_eq_some_iff.symm

/-- An arena is acyclic if some measure gets smaller from each frame to its outer one. -/
theorem acyclic_of_rank (rank : FrameId → Nat)
    (hrank : ∀ inner outer, a.Inside inner outer → rank outer < rank inner) :
    a.Acyclic := by
  have hdescends : ∀ inner outer, Relation.TransGen a.Inside inner outer →
      rank outer < rank inner := by
    intro inner outer hchain
    induction hchain with
    | single hinside => exact hrank _ _ hinside
    | tail _ hinside ih => exact Nat.lt_trans (hrank _ _ hinside) ih
  exact fun id hcircle => Nat.lt_irrefl _ (hdescends id id hcircle)

/-- An arena is acyclic if every frame has its outer one in an earlier slot. -/
theorem acyclic_of_descending
    (hdescending : ∀ inner < a.frames.size,
      ((a.frame? inner).bind (·.outer)).all (· < inner)) : a.Acyclic := by
  refine acyclic_of_rank id fun inner outer hinside => ?_
  obtain ⟨frame, hframe, houter⟩ := hinside
  simpa [hframe, houter] using hdescending inner (lt_size_of_frame? hframe)

/-- An arena whose frames lie inside no others than before stays acyclic. -/
theorem Acyclic.of_inside {b : Arena α} (hacyclic : a.Acyclic)
    (hinside : ∀ inner outer, b.Inside inner outer → a.Inside inner outer) :
    b.Acyclic :=
  fun id hcircle => hacyclic id (Relation.TransGen.mono hinside id id hcircle)

/-! ### Walks outwards end -/

open Classical in
/-- The frames on the outer chain of a slot. -/
noncomputable def outward (a : Arena α) (id : FrameId) : Finset FrameId :=
  {slot ∈ Finset.range a.frames.size | (a.frame? slot).isSome ∧ a.Around id slot}

theorem mem_outward {id slot : FrameId} :
    slot ∈ a.outward id ↔ (a.frame? slot).isSome ∧ a.Around id slot := by
  classical
  rw [outward, Finset.mem_filter, Finset.mem_range]
  refine ⟨And.right, fun hslot => ⟨?_, hslot⟩⟩
  obtain ⟨frame, hframe⟩ := Option.isSome_iff_exists.mp hslot.1
  exact lt_size_of_frame? hframe

theorem card_outward_le (a : Arena α) (id : FrameId) :
    (a.outward id).card ≤ a.frames.size := by
  classical
  calc (a.outward id).card
      ≤ (Finset.range a.frames.size).card := Finset.card_filter_le _ _
    _ = a.frames.size := Finset.card_range _

/-- One step outwards leaves fewer frames ahead. -/
theorem Acyclic.card_outward_lt (hacyclic : a.Acyclic) {inner outer : FrameId}
    (hinside : a.Inside inner outer) :
    (a.outward outer).card < (a.outward inner).card := by
  have hinner : (a.frame? inner).isSome := by
    obtain ⟨frame, hframe, -⟩ := hinside
    rw [hframe, Option.isSome_some]
  refine Finset.card_lt_card (Finset.ssubset_iff_subset_ne.mpr ⟨?_, ?_⟩)
  · intro slot hslot
    obtain ⟨hframe, haround⟩ := mem_outward.mp hslot
    exact mem_outward.mpr ⟨hframe, .head hinside haround⟩
  · intro hsame
    have hself : inner ∈ a.outward outer :=
      hsame ▸ mem_outward.mpr ⟨hinner, .refl⟩
    exact hacyclic inner (.head' hinside (mem_outward.mp hself).2)

/-- A lookup that may visit all frames ahead finds what a longer one finds. -/
theorem Acyclic.resolveWithin_succ (hacyclic : a.Acyclic) (name : String) {n : Nat}
    {id : FrameId} (hn : (a.outward id).card ≤ n) :
    resolveWithin a name (n + 1) id = resolveWithin a name n id := by
  induction n generalizing id with
  | zero =>
    have hnone : a.frame? id = none := by
      by_contra hsome
      have hid : id ∈ a.outward id :=
        mem_outward.mpr ⟨Option.isSome_iff_ne_none.mpr hsome, .refl⟩
      exact absurd (Finset.card_pos.mpr ⟨id, hid⟩) (Nat.not_lt.mpr hn)
    simp [resolveWithin, hnone]
  | succ n ih =>
    unfold resolveWithin
    split
    · rfl
    · next frame hframe =>
      split
      · rfl
      · split
        · rfl
        · next outer houter =>
          have hlt := hacyclic.card_outward_lt ⟨frame, hframe, houter⟩
          exact ih (Nat.le_of_lt_succ (Nat.lt_of_lt_of_le hlt hn))

/-- No lookup is cut short. -/
theorem Acyclic.resolveWithin_eq (hacyclic : a.Acyclic) (id : FrameId) (name : String)
    {n : Nat} (hn : a.frames.size ≤ n) :
    resolveWithin a name n id = a.resolve? id name := by
  induction n, hn using Nat.le_induction with
  | base => rfl
  | succ n hn ih =>
    rw [hacyclic.resolveWithin_succ name (Nat.le_trans (a.card_outward_le id) hn), ih]

/-- A walk that may mark one slot more than there are frames ahead does what a longer
one does. -/
theorem Acyclic.markWithin_succ (hacyclic : a.Acyclic) (start : FrameId) {n : Nat}
    {id : FrameId} (hn : (a.outward id).card < n) (marks : Array Bool) :
    markWithin a start (n + 1) id marks = markWithin a start n id marks := by
  induction n generalizing id marks with
  | zero => exact absurd hn (Nat.not_lt_zero _)
  | succ n ih =>
    unfold markWithin
    split
    · rfl
    · dsimp only
      split
      · rfl
      · next outer houter =>
        have hlt := hacyclic.card_outward_lt (inside_iff_outer.mpr houter)
        exact ih (Nat.lt_of_lt_of_le hlt (Nat.le_of_lt_succ hn)) _

/-- No walk that marks frames is cut short. -/
theorem Acyclic.markWithin_eq (hacyclic : a.Acyclic) (start id : FrameId)
    (marks : Array Bool) {n : Nat} (hn : a.frames.size < n) :
    markWithin a start n id marks =
      markWithin a start (a.frames.size + 1) id marks := by
  induction n, hn using Nat.le_induction with
  | base => rfl
  | succ n hn ih =>
    rw [hacyclic.markWithin_succ start (Nat.lt_of_le_of_lt (a.card_outward_le id) hn),
      ih]

end Script.Scope.Arena
