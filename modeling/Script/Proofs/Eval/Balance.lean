import Script.Proofs.Eval.Rules
import Script.Proofs.Scope.Slots
import Script.Session

/-!
# Evaluation is balanced

However an evaluation ends, the depths of calls and loops are what they were, and
the frames that run are those that ran before.  So a session finds its machine
between two programs as it was at the start: no call and no loop is under way,
and only the root runs.
-/

namespace Script

open Scope (Arena FrameId)

namespace Machine

/-- The machines that can come up: those at the start of a session, and what any
changes, openings and closings make of them. -/
inductive Reached : Machine → Prop where
  | start (input : String) (layout : Layout) : Reached (start input layout)
  | load {m : Machine} (source : String) (hm : Reached m) :
    Reached { m with source := some source }
  | change {m m' : Machine} (hm : Reached m) (hchange : Change m m') : Reached m'
  | openFrame {m : Machine} (outer : FrameId) (hm : Reached m) :
    Reached (m.openFrame outer)
  | closeFrame {m : Machine} (frame : FrameId) (hm : Reached m) :
    Reached (m.closeFrame frame)
  | openCall {m : Machine} (hm : Reached m) : Reached m.openCall
  | closeCall {m : Machine} (hm : Reached m) : Reached m.closeCall
  | openLoop {m : Machine} (hm : Reached m) : Reached m.openLoop
  | closeLoop {m : Machine} (hm : Reached m) : Reached m.closeLoop

/-- Nothing is open after that was not open before, and nothing is closed. -/
structure Balanced (m m' : Machine) : Prop where
  callDepth : m'.callDepth = m.callDepth
  loopDepth : m'.loopDepth = m.loopDepth
  running : ∀ frame, m'.scopes.Running frame ↔ m.scopes.Running frame

variable {m m' : Machine} {limit : Nat}

theorem Balanced.refl (m : Machine) : Balanced m m where
  callDepth := rfl
  loopDepth := rfl
  running := fun _ => Iff.rfl

theorem Balanced.trans {m'' : Machine} (hfirst : Balanced m m')
    (hsecond : Balanced m' m'') : Balanced m m'' where
  callDepth := hsecond.callDepth.trans hfirst.callDepth
  loopDepth := hsecond.loopDepth.trans hfirst.loopDepth
  running := fun frame => (hsecond.running frame).trans (hfirst.running frame)

theorem Change.quiet (hchange : Change m m') :
    Arena.Quiet m.scopes m'.scopes := by
  cases hchange with
  | heap | read | print | note => exact Arena.Quiet.refl _
  | bind frame b => exact Arena.quiet_bind frame b
  | update frame name value => exact Arena.quiet_update frame name value
  | pin frame => exact Arena.quiet_pin frame
  | drop hold => exact Arena.quiet_drop hold

theorem Change.balanced (hchange : Change m m') : Balanced m m' where
  callDepth := by cases hchange <;> rfl
  loopDepth := by cases hchange <;> rfl
  running := hchange.quiet.running_iff

theorem Reached.tidy (hm : m.Reached) : m.scopes.Tidy := by
  induction hm with
  | start => exact Arena.tidy_new
  | load _ _ ih => exact ih
  | change _ hchange ih => exact ih.quiet hchange.quiet
  | openFrame outer _ ih => exact ih.child outer
  | closeFrame frame _ ih => exact ih.release frame
  | openCall _ ih | closeCall _ ih | openLoop _ ih | closeLoop _ ih => exact ih

theorem Nested.reached (hnested : Nested limit m m') (hm : m.Reached) :
    m'.Reached := by
  induction hnested with
  | rest => exact hm
  | change hchange => exact hm.change hchange
  | seq _ _ ihfirst ihsecond => exact ihsecond (ihfirst hm)
  | frame outer _ ih => exact (ih (hm.openFrame outer)).closeFrame _
  | call _ _ ih => exact (ih hm.openCall).closeCall
  | loop _ ih => exact (ih hm.openLoop).closeLoop

/-- A frame that is opened and closed around a balanced part. -/
theorem Balanced.frame {outer : FrameId} (htidy : m.scopes.Tidy)
    (hinner : Balanced (m.openFrame outer) m') :
    Balanced m (m'.closeFrame (m.scopes.child outer).1) where
  callDepth := hinner.callDepth
  loopDepth := hinner.loopDepth
  running := by
    intro frame
    have hempty := htidy.frame?_child_slot outer
    have hroot : (m.scopes.child outer).1 ≠ Arena.root := by
      intro heq
      obtain ⟨root, hframe, -⟩ := htidy.root_running
      rw [heq, hframe] at hempty
      cases hempty
    change (m'.scopes.release (m.scopes.child outer).1).Running frame ↔ _
    rw [Arena.running_release_iff hroot, hinner.running]
    change (m.scopes.child outer).2.Running frame ∧ _ ↔ _
    rw [htidy.running_child_iff]
    constructor
    · rintro ⟨hrunning | hnew, hne⟩
      · exact hrunning
      · exact absurd hnew hne
    · intro hrunning
      refine ⟨Or.inl hrunning, ?_⟩
      rintro rfl
      obtain ⟨old, hold, -⟩ := hrunning
      rw [hempty] at hold
      cases hold

theorem Nested.balanced (hnested : Nested limit m m') (hm : m.Reached) :
    Balanced m m' := by
  induction hnested with
  | rest m => exact Balanced.refl m
  | change hchange => exact hchange.balanced
  | seq hfirst _ ihfirst ihsecond =>
    exact (ihfirst hm).trans (ihsecond (hfirst.reached hm))
  | frame outer _ ih => exact Balanced.frame hm.tidy (ih (hm.openFrame outer))
  | call _ _ ih =>
    have hinner := ih hm.openCall
    exact ⟨congrArg (· - 1) hinner.callDepth, hinner.loopDepth, hinner.running⟩
  | loop _ ih =>
    have hinner := ih hm.openLoop
    exact ⟨hinner.callDepth, congrArg (· - 1) hinner.loopDepth, hinner.running⟩

/-- The machines of a session, between two programs.  A run counts whether it
gives a value or fails. -/
inductive InSession (settings : Settings) : Machine → Prop where
  | start (input : String) (layout : Layout) :
    InSession settings (start input layout)
  | take {m : Machine} (hm : InSession settings m) :
      InSession settings m.takeAdvisories.2
  | run {m m' : Machine} {bound : Nat} {file source : String}
      {result : Except RunFailure Value} (hm : InSession settings m)
      (hrun : m.runSource settings bound file source = some (result, m')) :
      InSession settings m'

/-- The machine behind a run is the one that the evaluation leaves. -/
theorem machine?_of_runProgram {settings : Settings} {bound : Nat} {p : Program}
    {result : Except RunFailure Value}
    (hrun : m.runProgram settings bound p = some (result, m')) :
    ((Evaluator.bounded settings bound).program p m).machine? = some m' := by
  unfold runProgram at hrun
  split at hrun <;> simp_all [Outcome.machine?]

theorem licensed_of_runProgram (kept : Array Nat) {settings : Settings} {bound : Nat}
    {p : Program} {result : Except RunFailure Value}
    (hrun : m.runProgram settings bound p = some (result, m')) :
    Licensed settings.callLimit kept (.setUp Arena.root) m m' :=
  program_licensed settings bound p (machine?_of_runProgram hrun)

theorem licensed_of_runSource (kept : Array Nat) {settings : Settings} {bound : Nat}
    {file source : String} {result : Except RunFailure Value}
    (hrun : m.runSource settings bound file source = some (result, m')) :
    Licensed settings.callLimit kept (.setUp Arena.root)
      { m with source := some source } m' := by
  unfold runSource at hrun
  simp only at hrun
  split at hrun
  · rw [Option.some.injEq, Prod.mk.injEq] at hrun
    rw [← hrun.2]
    exact Licensed.rest _ _
  · exact licensed_of_runProgram kept hrun

theorem InSession.reached {settings : Settings} (hm : m.InSession settings) :
    m.Reached := by
  induction hm with
  | start input layout => exact Reached.start input layout
  | take _ ih => exact ih.change (Change.note _ .empty)
  | run _ hrun ih => exact (licensed_of_runSource #[] hrun).nested.reached (ih.load _)

/-- At the start only the root runs. -/
theorem running_start_iff (input : String) (layout : Layout) (frame : FrameId) :
    (start input layout).scopes.Running frame ↔ frame = Arena.root := by
  cases frame with
  | zero => simp [Arena.Running, start, Arena.new, Arena.frame?, Arena.root]
  | succ frame => simp [Arena.Running, start, Arena.new, Arena.frame?, Arena.root]

theorem InSession.balanced {settings : Settings} (hm : m.InSession settings) :
    ∃ input layout, Balanced (Machine.start input layout) m := by
  induction hm with
  | start input layout => exact ⟨input, layout, Balanced.refl _⟩
  | take _ ih =>
    obtain ⟨input, layout, hbefore⟩ := ih
    exact ⟨input, layout, hbefore.trans (Change.note _ .empty).balanced⟩
  | run hm hrun ih =>
    obtain ⟨input, layout, hbefore⟩ := ih
    have hloaded :=
      (licensed_of_runSource #[] hrun).nested.balanced (hm.reached.load _)
    refine ⟨input, layout, hbefore.trans ?_⟩
    exact ⟨hloaded.callDepth, hloaded.loopDepth, hloaded.running⟩

end Machine

/-- Whatever is evaluated on a machine that can come up, in whatever frame and
however it ends: frames, calls and loops are opened and closed in brackets, the
depths are what they were, and the same frames run.  Between the programs of a
session no call and no loop is under way, and only the root runs. -/
theorem evaluation_balanced (settings : Settings) :
    (∀ (bound : Nat) (task : Task) (m m' : Machine), m.Reached →
      (evaluate settings bound task m).machine? = some m' →
      Machine.Nested settings.callLimit m m' ∧ m'.Reached ∧
      m'.callDepth = m.callDepth ∧ m'.loopDepth = m.loopDepth ∧
      ∀ frame, m'.scopes.Running frame ↔ m.scopes.Running frame) ∧
    (∀ m : Machine, m.InSession settings →
      m.callDepth = 0 ∧ m.loopDepth = 0 ∧
      ∀ frame, m.scopes.Running frame ↔ frame = Arena.root) := by
  constructor
  · intro bound task m m' hm hend
    have hnested := evaluate_nests settings bound task m m' hend
    have hbalanced := hnested.balanced hm
    exact ⟨hnested, hnested.reached hm, hbalanced.callDepth,
      hbalanced.loopDepth, hbalanced.running⟩
  · intro m hm
    obtain ⟨input, layout, hbalanced⟩ := hm.balanced
    refine ⟨hbalanced.callDepth, hbalanced.loopDepth, fun frame => ?_⟩
    rw [hbalanced.running, Machine.running_start_iff]

/-- A loop whose body calls a function that fails. -/
def failingCall : Expr :=
  let loc := Location.unknown
  let call := Expr.call (.arrow [] (.name ⟨"missing", loc⟩) loc) [] loc
  .whileLoop (.int 1 loc) ⟨[.expr call loc], loc⟩ loc

theorem evaluation_balanced_failingCall :
    ∃ problem loc m',
      evaluate { callLimit := 1, library := .empty } 6
        (.expr failingCall Arena.root) (Machine.start "") =
          .left (.failed problem loc) m' ∧
      m'.callDepth = 0 ∧ m'.loopDepth = 0 ∧
      ∀ frame, m'.scopes.Running frame ↔ frame = Arena.root := by
  refine ⟨_, _, _, rfl, ?_⟩
  obtain ⟨heval, hsession⟩ :=
    evaluation_balanced { callLimit := 1, library := .empty }
  have hstart := hsession (Machine.start "") (Machine.InSession.start "" _)
  obtain ⟨-, -, hcalls, hloops, hrunning⟩ := heval 6
    (.expr failingCall Arena.root) (Machine.start "") _ (.start "" _) rfl
  exact ⟨hcalls, hloops, fun frame => (hrunning frame).trans (hstart.2.2 frame)⟩

end Script
