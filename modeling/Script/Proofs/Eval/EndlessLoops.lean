import Script.Proofs.Eval.Calls
import Script.Proofs.Eval.Jumps
import Script.Proofs.Eval.Sources
import Script.Proofs.Syntax.Marks

/-!
# Loops that are warned about

A `while` loop is warned about if its condition is the literal `true` and no way out
is found in its body.  The warning is never wrong: no round of such a loop is its last
one unless it fails, so the loop fails or goes on for as long as it is let.
-/

namespace Script

open Scope (Arena FrameId)
open Comparison

/-- A computation that has not come to a result: it has failed, or it was still under
way when its bound was used up. -/
def Outcome.Unfinished {α : Type} : Outcome α → Prop
  | .done .. => False
  | .left exit _ => ∃ problem loc, exit = .failed problem loc
  | .exhausted => True

/-! ### Rounds -/

section

variable (settings : Settings) (bound : Nat)

theorem leftOnlyBy_block (body : Block) (frame : FrameId) (m : Machine) :
    ((Evaluator.bounded settings bound).block body frame m).LeftOnlyBy
      fun j => ∃ s ∈ body.statements, Piece.HasJump j (.stmt s) := by
  have hall := identical.followsAll_self settings bound m.callDepth
  have hbody : (identical .together).FollowsBlock (.bounded settings bound)
      (.bounded settings bound) m.callDepth
      (fun j => ∃ s ∈ body.statements, Piece.HasJump j (.stmt s)) body :=
    fun s hs frame => (hall.piece (.stmt s) frame).weaken fun _ hj => ⟨s, hs, hj⟩
  exact (Follows.block hbody frame m m (identical.agree_self m)).leftOnlyBy

/-- The literal `true` holds, if there is any bound at all. -/
theorem holds_trueLiteral {condition : Expr}
    (htrue : Evaluator.isTrueLiteral condition = true) (frame : FrameId) (m : Machine) :
    (Evaluator.bounded settings bound).holds condition frame m = .done true m ∨
      (Evaluator.bounded settings bound).holds condition frame m = .exhausted := by
  cases condition with
  | bool value loc =>
    obtain rfl : value = true := htrue
    cases bound with
    | zero => exact Or.inr rfl
    | succ bound => exact Or.inl rfl
  | _ => cases htrue

variable {body : Block} (hstays : body.canLeave = false)
include hstays

/-- Behind each round of a loop without a way out there is another one. -/
theorem round_goesOn (frame : FrameId) (m : Machine) :
    (∃ m', (Evaluator.bounded settings bound).round body frame m = .done true m') ∨
      ((Evaluator.bounded settings bound).round body frame m).Unfinished := by
  have hjumps := (leftOnlyBy_block settings bound body (m.scopes.child frame).1
    (m.openFrame frame)).mono fun j hj => by
      obtain ⟨s, hs, hjump⟩ := hj
      exact Block.no_jump_of_canLeave hstays hs hjump
  rw [Evaluator.round, Eval.inChild_eq]
  unfold Eval.ending Eval.goesOn
  cases hbody : (Evaluator.bounded settings bound).block body (m.scopes.child frame).1
      (m.openFrame frame) with
  | done value inner => exact Or.inl ⟨_, rfl⟩
  | exhausted => exact Or.inr trivial
  | left exit inner =>
    rw [hbody] at hjumps
    cases exit with
    | continued => exact Or.inl ⟨_, rfl⟩
    | failed problem loc => exact Or.inr ⟨problem, loc, rfl⟩
    | returned value => cases hjumps .ret rfl
    | broke => cases hjumps .brk rfl

/-- By induction on the rounds that the loop is let go: each one leads to the next. -/
theorem whileRounds_unfinished {condition : Expr}
    (htrue : Evaluator.isTrueLiteral condition = true) (frame : FrameId) (n : Nat)
    (m : Machine) :
    ((Evaluator.bounded settings bound).whileRounds condition body frame n
      m).Unfinished := by
  induction n generalizing m with
  | zero => trivial
  | succ n ih =>
    unfold Evaluator.whileRounds
    rcases holds_trueLiteral settings bound htrue frame m with hholds | hholds
    · rw [Eval.bind_of_done hholds, if_pos rfl]
      rcases round_goesOn settings bound hstays frame m with ⟨m', hround⟩ | hround
      · rw [Eval.bind_of_done hround, if_pos rfl]
        exact ih m'
      · cases hend : (Evaluator.bounded settings bound).round body frame m with
        | done again m' => rw [hend] at hround; exact hround.elim
        | left exit m' =>
          rw [hend] at hround
          rw [Eval.bind_of_left hend]
          exact hround
        | exhausted =>
          rw [Eval.bind_of_exhausted hend]
          trivial
    · rw [Eval.bind_of_exhausted hholds]
      trivial

end

/-! ### Warnings -/

theorem Eval.unfinished_inLoop {α : Type} {c : Eval α} (loc : Location)
    (hc : ∀ m, (c m).Unfinished) (m : Machine) : (inLoop loc c m).Unfinished := by
  unfold inLoop Eval.bind ending
  rw [enterLoop_eq]
  dsimp only
  have hinner := hc (m.enterLoop loc)
  cases hend : c (m.enterLoop loc) with
  | done value inner => rw [hend] at hinner; exact hinner.elim
  | left exit inner => rw [hend] at hinner; exact hinner
  | exhausted => trivial

/-- What has been noted is known. -/
theorem Eval.isKnown_noted (problem : Problem) (loc : Location) (m : Machine) :
    isKnown (noted problem loc m) problem.code loc = true :=
  (isKnown_noted_iff problem loc m _ _).mpr (Or.inr ⟨rfl, rfl⟩)

/-- Nothing that is known is forgotten. -/
theorem Machine.NotesText.isKnown {m m' : Machine} (hnotes : m.NotesText m') {code : Code}
    {loc : Location} (hknown : Eval.isKnown m.advisories code loc = true) :
    Eval.isKnown m'.advisories code loc = true := by
  obtain ⟨noted, hnoted, -⟩ := hnotes.noted
  rw [Eval.isKnown] at hknown ⊢
  rw [hnoted, List.any_append, hknown, Bool.true_or]

section

variable (settings : Settings) {condition : Expr} {body : Block}
  (htrue : Evaluator.isTrueLiteral condition = true) (hstays : body.canLeave = false)
include htrue hstays

/-- It is warned about before its first round. -/
theorem evaluate_whileLoop (bound : Nat) (loc : Location) (frame : FrameId) (m : Machine) :
    evaluate settings (bound + 1) (.expr (.whileLoop condition body loc) frame) m =
      Eval.inLoop loc
        ((Evaluator.bounded settings bound).whileRounds condition body frame bound)
        { m with advisories := Eval.noted .infiniteLoop loc m } := by
  change Evaluator.whileLoop (.bounded settings bound) condition body loc frame m = _
  rw [Evaluator.whileLoop, htrue, hstays]
  exact Eval.bind_of_done (Eval.advise_eq .infiniteLoop loc m)

theorem whileLoop_unfinished (bound : Nat) (loc : Location) (frame : FrameId)
    (m : Machine) :
    (evaluate settings bound (.expr (.whileLoop condition body loc) frame)
      m).Unfinished := by
  cases bound with
  | zero => trivial
  | succ bound =>
    rw [evaluate_whileLoop settings htrue hstays bound loc frame m]
    exact Eval.unfinished_inLoop loc
      (whileRounds_unfinished settings bound hstays htrue frame bound) _

theorem whileLoop_warned {bound : Nat} {loc : Location} {frame : FrameId}
    {m m' : Machine}
    (hend : (evaluate settings bound (.expr (.whileLoop condition body loc) frame)
      m).machine? = some m') :
    Eval.isKnown m'.advisories Problem.infiniteLoop.code loc = true := by
  cases bound with
  | zero => cases hend
  | succ bound =>
    rw [evaluate_whileLoop settings htrue hstays bound loc frame m] at hend
    have hrounds := (Evaluator.bounded_abides settings bound #[]).whileRounds condition
      body frame bound
    exact ((hrounds.inLoop _ trivial).2 m' hend).notesText.isKnown
      (Eval.isKnown_noted .infiniteLoop loc m)

/-- Whatever state it is evaluated in, a `while` loop that is warned about goes on for
as long as it is let, or it ends in a failure.  A failure has the warning behind it,
and it is the same one for every bound that is large enough. -/
theorem warned_loop_never_finishes (loc : Location) (frame : FrameId) (m : Machine) :
    (∀ bound, evaluate settings bound (.expr (.whileLoop condition body loc) frame) m =
      .exhausted) ∨
    ∃ problem at' m' least,
      (∀ bound, evaluate settings bound (.expr (.whileLoop condition body loc) frame) m =
        if bound < least then .exhausted else .left (.failed problem at') m') ∧
      Eval.isKnown m'.advisories Problem.infiniteLoop.code loc = true := by
  rcases identical.evaluate_settles settings (.expr (.whileLoop condition body loc) frame)
    m with hforever | ⟨outcome, least, hends, hsettled⟩
  · exact Or.inl hforever
  · have hleast := hsettled least
    rw [if_neg (lt_irrefl least)] at hleast
    have hunfinished := whileLoop_unfinished settings htrue hstays least loc frame m
    rw [hleast] at hunfinished
    cases outcome with
    | exhausted => exact (hends rfl).elim
    | done value m' => exact hunfinished.elim
    | left exit m' =>
      obtain ⟨problem, at', rfl⟩ := hunfinished
      exact Or.inr ⟨problem, at', m', least, hsettled,
        whileLoop_warned settings htrue hstays (by rw [hleast]; rfl)⟩

end

/-- A `break` of an inner loop, the `return` of a function, and behind them the use of
a name that is not bound. -/
def bodyWithInnerJumps : Block :=
  let loc := Location.unknown
  let innerLoop := Expr.whileLoop (.bool true loc) ⟨[.brk loc], loc⟩ loc
  let function := Expr.function ⟨none, .plain [], [], ⟨[.ret none loc], loc⟩, loc⟩
  ⟨[.expr innerLoop loc, .expr function loc, .expr (.name ⟨"missing", loc⟩) loc], loc⟩

theorem warned_loop_never_finishes_innerJumps :
    bodyWithInnerJumps.canLeave = false ∧
      ∃ problem at' m', ∀ bound, 4 ≤ bound →
        evaluate { callLimit := 1, library := .empty } bound
          (.expr (.whileLoop (.bool true .unknown) bodyWithInnerJumps .unknown)
            Arena.root) (Machine.start "") = .left (.failed problem at') m' := by
  have htrue : Evaluator.isTrueLiteral (.bool true .unknown) = true := rfl
  have hstays : bodyWithInnerJumps.canLeave = false := by decide
  have hends : (evaluate { callLimit := 1, library := .empty } 4
      (.expr (.whileLoop (.bool true .unknown) bodyWithInnerJumps .unknown)
        Arena.root) (Machine.start "")).machine?.isSome = true := by decide +kernel
  refine ⟨hstays, ?_⟩
  rcases warned_loop_never_finishes { callLimit := 1, library := .empty } htrue hstays
    .unknown Arena.root (Machine.start "") with
    hforever | ⟨problem, at', m', least, hsettled, -⟩
  · rw [hforever] at hends
    cases hends
  · have hfew : least ≤ 4 := by
      by_contra hmany
      rw [hsettled, if_pos (not_le.mp hmany)] at hends
      cases hends
    refine ⟨problem, at', m', fun bound hbound => ?_⟩
    rw [hsettled, if_neg (not_lt.mpr (hfew.trans hbound))]

end Script
