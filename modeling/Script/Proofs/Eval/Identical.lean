import Mathlib.Data.Nat.Find
import Script.Proofs.Eval.Tasks

/-!
# One run beside itself

The simplest comparison is that of runs from the same machine.  Of two runs with
different bounds, the one with the larger bound ends as the other one does if
that ends at all.
-/

namespace Script

open Scope (Arena FrameId)

instance : Fixes (.relocation id) Closure where
  recode_eq f := Value.function.inj (recode_relocation_id (.function f))

instance : Fixes (.relocation id) Value where
  recode_eq := recode_relocation_id

/-- Leaves all code alone, and gives the report that a call is refused another
form. -/
def Recoding.still (refusal : Nat → String → Problem) : Recoding :=
  { Recoding.relocation id with refusal }

theorem Recoding.still_loc (refusal : Nat → String → Problem) :
    (Recoding.still refusal).loc = id :=
  rfl

instance (refusal : Nat → String → Problem) :
    Fixes (.still refusal) Closure where
  recode_eq f := Value.function.inj (recode_relocation_id (.function f))

instance (refusal : Nat → String → Problem) : Fixes (.still refusal) Value where
  recode_eq := recode_relocation_id

theorem Recoding.still_keeps (refusal : Nat → String → Problem) (p : Piece) :
    (Recoding.still refusal).Keeps p := by
  unfold Recoding.Keeps
  split
  · exact Function.relocate_id _
  · exact ⟨Name.map_relocate_id _, Expr.relocate_id _⟩
  · exact Function.relocate_id _
  · trivial

/-- The jumps that may leave a task. -/
def Task.Jumps : Task → Jump → Prop
  | .expr e _ => (Piece.HasJump · (.expr e))
  | .stmt s _ => (Piece.HasJump · (.stmt s))
  | .apply .. => noJump

namespace Comparison

/-- Two runs from the same machine.  If refusals take another form, the first run
does not end in one. -/
def identical (stopping : Leeway)
    (refusal : Nat → String → Problem := .recursionDepth) : Comparison where
  move := id
  guard := .still refusal
  guard_loc := Recoding.still_loc _
  exact := True
  exact_move := Comparison.stays
  printed := ("", "")
  stopping := stopping

variable {stopping : Leeway} {refusal : Nat → String → Problem} {depth : Nat}

namespace identical

theorem related_self {α : Type} [Recodable α] [Fixes (.relocation id) α]
    [Fixes (.still refusal) α] (x : α) :
    (identical stopping refusal).Related x x :=
  ⟨Fixes.recode_eq (ρ := .relocation id) x,
    Fixes.recode_eq (ρ := .still refusal) x⟩

theorem eq_of_related {α : Type} [Recodable α] [Fixes (.relocation id) α]
    {x y : α} (h : (identical stopping refusal).Related x y) : x = y :=
  (Fixes.recode_eq (ρ := .relocation id) x).symm.trans h.moved

instance : Fixes (.relocation id) Exit where
  recode_eq exit := by
    cases exit with
    | returned v => exact congrArg Exit.returned (Fixes.recode_eq v)
    | failed problem loc =>
      exact congrArg (Exit.failed · loc) (recode_relocation_problem id problem)
    | _ => rfl

theorem agree_self (m : Machine) :
    (identical stopping refusal).Agree m.callDepth m m where
  scopes := related_self m.scopes
  heap := related_self m.heap
  input := rfl
  output := ⟨m.output, String.empty_append.symm, String.empty_append.symm⟩
  firstDepth := rfl
  secondDepth := rfl
  noticed _ := ⟨rfl, rfl, rfl⟩
  placed _ _ := trivial

theorem eq_of_agree {m₁ m₂ : Machine}
    (h : (identical stopping refusal).Agree depth m₁ m₂) : m₁ = m₂ := by
  obtain ⟨text, hfirst, hsecond⟩ := h.output
  obtain ⟨hadvisories, hsource, hloops⟩ := h.noticed trivial
  have hscopes := eq_of_related h.scopes
  have hheap := eq_of_related h.heap
  have hinput := h.input
  have houtput := hfirst.trans hsecond.symm
  have hdepth := h.firstDepth.trans h.secondDepth.symm
  cases m₁
  cases m₂
  simp_all

/-- The first run ends in the same way as the second one, unless it comes to the
end of its bound. -/
theorem eq_of_matches {α : Type} [Recodable α] [Fixes (.relocation id) α]
    {jumps : Jump → Prop} {o₁ o₂ : Outcome α}
    (h : (identical stopping refusal).Matches depth jumps o₁ o₂) :
    o₁ = .exhausted ∨ o₁ = o₂ := by
  cases h with
  | done hvalue hagree =>
    rw [eq_of_related hvalue, eq_of_agree hagree]
    exact Or.inr rfl
  | left hexit _ hagree =>
    rw [eq_of_related hexit, eq_of_agree hagree]
    exact Or.inr rfl
  | exhausted _ => exact Or.inl rfl

/-- Runs that come to the end of their bounds together end in the same way. -/
theorem eq_of_matches_together {α : Type} [Recodable α]
    [Fixes (.relocation id) α] {jumps : Jump → Prop} {o₁ o₂ : Outcome α}
    (h : (identical .together refusal).Matches depth jumps o₁ o₂) : o₁ = o₂ := by
  rcases eq_of_matches h with rfl | heq
  · cases h with
    | exhausted hstop => exact hstop.symm
  · exact heq

/-- All of two evaluators follows if the outcomes of each task match. -/
theorem followsAll_iff {ev₁ ev₂ : Evaluator} :
    (identical stopping refusal).FollowsAll ev₁ ev₂ depth ↔
      ∀ task m, m.callDepth = depth →
        (identical stopping refusal).Matches depth task.Jumps (ev₁.run task m)
          (ev₂.run task m) := by
  constructor
  · rintro hall task m rfl
    cases task with
    | expr e frame =>
      have hexpr := hall.piece (.expr e) frame m m (agree_self m)
      unfold Evaluator.expr at hexpr
      rwa [show e.relocate (identical stopping refusal).move = e from
        e.relocate_id] at hexpr
    | stmt s frame =>
      have hstmt := hall.piece (.stmt s) frame m m (agree_self m)
      unfold Evaluator.stmt at hstmt
      rwa [show s.relocate (identical stopping refusal).move = s from
        s.relocate_id] at hstmt
    | apply callee args loc =>
      exact hall.apply (args.length + 1) loc (related_self callee)
        (related_self args) (Nat.lt_succ_self _) m m (agree_self m)
  · intro hmatches
    refine ⟨fun p => ?_, fun n => ?_⟩
    · cases p with
      | expr e =>
        intro frame m m' hagree
        obtain rfl := eq_of_agree hagree
        rw [show e.relocate (identical stopping refusal).move = e from
          e.relocate_id]
        exact hmatches (.expr e frame) m hagree.firstDepth
      | stmt s =>
        intro frame m m' hagree
        obtain rfl := eq_of_agree hagree
        rw [show s.relocate (identical stopping refusal).move = s from
          s.relocate_id]
        exact hmatches (.stmt s frame) m hagree.firstDepth
    · intro callee callee' args args' loc hcallee hargs _ m m' hagree
      obtain rfl := eq_of_agree hagree
      obtain rfl := eq_of_related hcallee
      obtain rfl := eq_of_related hargs
      exact hmatches (.apply callee args loc) m hagree.firstDepth

theorem program_matches {ev₁ ev₂ : Evaluator} {m : Machine}
    (hall : (identical stopping refusal).FollowsAll ev₁ ev₂ m.callDepth)
    (p : Program) :
    (identical stopping refusal).Matches m.callDepth noJump (ev₁.program p m)
      (ev₂.program p m) := by
  have hprogram := hall.program p m m (agree_self m)
  rwa [show p.relocate (identical stopping refusal).move = p from
    p.relocate_id] at hprogram

theorem alike {ev₁ ev₂ : Evaluator}
    (hlibrary : ev₁.settings.library = ev₂.settings.library)
    (hrounds : (identical stopping refusal).BoundLeft ev₁.rounds ev₂.rounds) :
    (identical stopping refusal).Alike ev₁ ev₂ where
  library name := hlibrary ▸ related_self (ev₁.settings.library name)
  rounds := hrounds

theorem followsAll (settings : Settings) (hstop : stopping ≠ .never) {n n' : Nat}
    (hn : (identical stopping).BoundLeft n n') (depth : Nat) :
    (identical stopping).FollowsAll (.bounded settings n) (.bounded settings n')
      depth :=
  .bounded (Recoding.still_keeps _) rfl hstop rfl
    (fun name => related_self (settings.library name)) hn depth

theorem followsAll_self (settings : Settings) (n depth : Nat) :
    (identical .together).FollowsAll (.bounded settings n) (.bounded settings n)
      depth :=
  followsAll settings (by nofun) (Or.inl rfl) depth

/-- A run that ends within its bound ends in the same way within a larger one. -/
theorem program_eq_of_le (settings : Settings) {n n' : Nat} (hle : n ≤ n')
    (p : Program) (m : Machine) :
    (Evaluator.bounded settings n).program p m = .exhausted ∨
      (Evaluator.bounded settings n).program p m =
        (Evaluator.bounded settings n').program p m := by
  have hall : (identical .alone).FollowsAll (.bounded settings n)
      (.bounded settings n') m.callDepth :=
    followsAll settings (by nofun) (Or.inr ⟨rfl, hle⟩) m.callDepth
  exact eq_of_matches (program_matches hall p)

theorem evaluate_eq_of_le (settings : Settings) {n n' : Nat} (hle : n ≤ n')
    (task : Task) (m : Machine) :
    evaluate settings n task m = .exhausted ∨
      evaluate settings n task m = evaluate settings n' task m := by
  have hall : (identical .alone).FollowsAll (.bounded settings n)
      (.bounded settings n') m.callDepth :=
    followsAll settings (by nofun) (Or.inr ⟨rfl, hle⟩) m.callDepth
  exact eq_of_matches (followsAll_iff.mp hall task m rfl)

/-- An evaluation uses up every bound, or it ends in one way within all bounds from
some least one on. -/
theorem evaluate_settles (settings : Settings) (task : Task) (m : Machine) :
    (∀ bound, evaluate settings bound task m = .exhausted) ∨
      ∃ outcome least, outcome ≠ .exhausted ∧
        ∀ bound, evaluate settings bound task m =
          if bound < least then .exhausted else outcome := by
  classical
  by_cases hends : ∃ bound, evaluate settings bound task m ≠ .exhausted
  · have hleast := Nat.find_spec hends
    refine Or.inr ⟨_, Nat.find hends, hleast, fun bound => ?_⟩
    split
    case isTrue hbefore => exact not_not.mp (Nat.find_min hends hbefore)
    case isFalse hbehind =>
      exact ((evaluate_eq_of_le settings (not_lt.mp hbehind) task m).resolve_left
        hleast).symm
  · exact Or.inl fun bound => not_not.mp (not_exists.mp hends bound)

end identical

end Comparison

end Script
