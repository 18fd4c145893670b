import Script.Proofs.Eval.Calls

/-!
# The limit on calls

No more calls are under way than the limit allows.  A call is refused exactly where
its arguments are as they should be and the limit is reached.  A run in which no
call is refused is the same under every higher limit.

What holds throughout a run is said of each task that the run rests on, whether it
comes to an end or not, and whether a problem that it gives is caught or not.  An
outcome rests on some tasks if it is the same whatever the others might give.
-/

namespace Script

open Scope (Arena FrameId)
open Comparison

/-! ### What a run rests on -/

/-- The result stays the same if the tasks outside of `S` give something else. -/
def RestsOn {α : Type} (S : Task → Machine → Prop) (run : Task → Eval Value)
    (result : (Task → Eval Value) → α) : Prop :=
  ∀ other, (∀ task m, S task m → other task m = run task m) →
    result other = result run

/-- What a task gives, depending on its parts. -/
def Settings.outcome (settings : Settings) (bound : Nat) (task : Task) (m : Machine)
    (run : Task → Eval Value) : Outcome Value :=
  Evaluator.evalTask { settings, rounds := bound, run } task m

/-- What a program gives, depending on its statements. -/
def Settings.programOutcome (settings : Settings) (bound : Nat) (p : Program)
    (m : Machine) (run : Task → Eval Value) : Outcome Value :=
  Evaluator.program { settings, rounds := bound, run } p m

/-- A property of tasks, with the machines they start on and their outcomes, holds
of a task and throughout what it rests on. -/
def Throughout (settings : Settings)
    (P : Task → Machine → Outcome Value → Prop) : Nat → Task → Machine → Prop
  | 0, task, m => P task m .exhausted
  | n + 1, task, m =>
    P task m (evaluate settings (n + 1) task m) ∧
      RestsOn (Throughout settings P n) (evaluate settings n)
        (settings.outcome n task m)

/-- A property holds throughout the run of a program. -/
def ThroughoutProgram (settings : Settings)
    (P : Task → Machine → Outcome Value → Prop) (n : Nat) (p : Program)
    (m : Machine) : Prop :=
  RestsOn (Throughout settings P n) (evaluate settings n)
    (settings.programOutcome n p m)

/-- A task without parts. -/
theorem Throughout.of_leaf {settings : Settings}
    {P : Task → Machine → Outcome Value → Prop} {n : Nat} {task : Task}
    {m : Machine} {o : Outcome Value} (h : ∀ run, settings.outcome n task m run = o)
    (ho : P task m o) : Throughout settings P (n + 1) task m := by
  have hrun : evaluate settings (n + 1) task m = o := h (evaluate settings n)
  exact ⟨hrun ▸ ho, fun other _ => (h other).trans (h _).symm⟩

/-! ### The depth of calls -/

/-- A task starts and ends with no more calls under way than the limit. -/
def WithinLimit (limit : Nat) (_ : Task) (m : Machine) (o : Outcome Value) : Prop :=
  m.callDepth ≤ limit ∧ ∀ m', o.machine? = some m' → m'.callDepth ≤ limit

section

variable {settings : Settings}

theorem withinLimit_evaluate (n : Nat) (task : Task) {m : Machine}
    (h : m.callDepth ≤ settings.callLimit) :
    WithinLimit settings.callLimit task m (evaluate settings n task m) := by
  refine ⟨h, fun m' hend => ?_⟩
  have hself := identical.followsAll_iff.mp
    (identical.followsAll_self settings n m.callDepth) task m rfl
  change Matches _ _ _ (evaluate settings n task m) (evaluate settings n task m)
    at hself
  generalize evaluate settings n task m = o at hend hself
  cases hself with
  | done _ hagree =>
    cases hend
    exact hagree.firstDepth ▸ h
  | left _ _ hagree =>
    cases hend
    exact hagree.firstDepth ▸ h
  | exhausted => cases hend

/-- Parts that are the same up to the limit follow up to the limit. -/
theorem followsAll_of_agree {n : Nat} {other : Task → Eval Value}
    (hother : ∀ task m, m.callDepth ≤ settings.callLimit →
      other task m = evaluate settings n task m) {depth : Nat}
    (hdepth : depth ≤ settings.callLimit) :
    (identical .together).FollowsAll { settings, rounds := n, run := other }
      (.bounded settings n) depth := by
  refine identical.followsAll_iff.mpr fun task m hm => ?_
  have hself := identical.followsAll_iff.mp
    (identical.followsAll_self settings n depth) task m hm
  rw [show Evaluator.run { settings, rounds := n, run := other } task m =
    evaluate settings n task m from hother task m (hm ▸ hdepth)]
  exact hself

theorem throughout_withinLimit (n : Nat) (task : Task) {m : Machine}
    (h : m.callDepth ≤ settings.callLimit) :
    Throughout settings (WithinLimit settings.callLimit) n task m := by
  induction n generalizing task m with
  | zero => exact ⟨h, nofun⟩
  | succ n ih =>
    refine ⟨withinLimit_evaluate (n + 1) task h, fun other hother => ?_⟩
    have hagree : ∀ task m, m.callDepth ≤ settings.callLimit →
        other task m = evaluate settings n task m :=
      fun task m hm => hother task m (ih task hm)
    have hall := followsAll_of_agree hagree h
    have hnext : (identical .together).FollowsAll
        { settings, rounds := n,
          run := Evaluator.evalTask { settings, rounds := n, run := other } }
        { settings, rounds := n, run := Evaluator.evalTask (.bounded settings n) }
        m.callDepth :=
      hall.next rfl rfl (Recoding.still_keeps _) (by nofun)
        (identical.alike rfl (Or.inl rfl)) fun k =>
          hall.sides (Or.inl rfl) (fun hlt => followsAll_of_agree hagree hlt)
            (fun _ _ => rfl) k
    exact identical.eq_of_matches_together
      (identical.followsAll_iff.mp hnext task m rfl)

theorem throughoutProgram_withinLimit (n : Nat) (p : Program) {m : Machine}
    (h : m.callDepth ≤ settings.callLimit) :
    ThroughoutProgram settings (WithinLimit settings.callLimit) n p m := by
  intro other hother
  have hall := followsAll_of_agree
    (fun task m hm => hother task m (throughout_withinLimit n task hm)) h
  exact identical.eq_of_matches_together (identical.program_matches hall p)

end

/-! ### Refusals -/

/-- The outcome is the report that a call is refused. -/
def Outcome.Refused {α : Type} (o : Outcome α) : Prop :=
  ∃ limit name loc m, o = .left (.failed (.recursionDepth limit name) loc) m

theorem Outcome.not_refused_done {α : Type} (x : α) (m : Machine) :
    ¬ (Outcome.done x m).Refused := by
  rintro ⟨_, _, _, _, h⟩
  cases h

/-- Refusals as they never are. -/
def otherRefusal (limit : Nat) (name : String) : Problem :=
  .recursionDepth (limit + 1) name

theorem recode_still_eq_self {problem : Problem}
    (h : ∀ limit name, problem ≠ .recursionDepth limit name) :
    recode (.still otherRefusal) problem = problem := by
  cases problem with
  | recursionDepth limit name => exact (h limit name rfl).elim
  | _ => rfl

namespace Comparison.identical

variable {stopping : Leeway} {depth : Nat} {jumps : Jump → Prop}

theorem not_refused_of_matches {o₁ o₂ : Outcome Value}
    (h : (identical stopping otherRefusal).Matches depth jumps o₁ o₂) :
    ¬ o₁.Refused := by
  rintro ⟨limit, name, loc, m, rfl⟩
  cases h with
  | left hexit =>
    have hproblem : Problem.recursionDepth (limit + 1) name =
        .recursionDepth limit name := (Exit.failed.inj hexit.guarded).1
    have hlimit := (Problem.recursionDepth.inj hproblem).1
    omega

theorem related_changeRefusal {refusal refusal' : Nat → String → Problem}
    {α : Type} [Recodable α] [Fixes (.still refusal') α] {x y : α}
    (h : (identical stopping refusal).Related x y) :
    (identical stopping refusal').Related x y :=
  ⟨h.moved, Fixes.recode_eq (ρ := .still refusal') x⟩

theorem agree_changeRefusal {refusal refusal' : Nat → String → Problem}
    {m₁ m₂ : Machine} (h : (identical stopping refusal).Agree depth m₁ m₂) :
    (identical stopping refusal').Agree depth m₁ m₂ where
  scopes := related_changeRefusal h.scopes
  heap := related_changeRefusal h.heap
  input := h.input
  output := h.output
  firstDepth := h.firstDepth
  secondDepth := h.secondDepth
  noticed := h.noticed
  placed := h.placed

instance : Fixes (.still .recursionDepth) Exit :=
  inferInstanceAs (Fixes (.relocation id) Exit)

/-- Refusals may have the form that they have. -/
theorem followsAll_plain {refusal : Nat → String → Problem} {ev₁ ev₂ : Evaluator}
    (hall : (identical stopping refusal).FollowsAll ev₁ ev₂ depth) :
    (identical stopping).FollowsAll ev₁ ev₂ depth := by
  refine followsAll_iff.mpr fun task m hm => ?_
  have hmatches := followsAll_iff.mp hall task m hm
  generalize ev₁.run task m = o₁ at hmatches ⊢
  generalize ev₂.run task m = o₂ at hmatches ⊢
  cases hmatches with
  | done hvalue hagree =>
    exact .done (related_changeRefusal hvalue) (agree_changeRefusal hagree)
  | left hexit hjumps hagree =>
    exact .left (related_changeRefusal hexit) hjumps (agree_changeRefusal hagree)
  | exhausted hstop => exact .exhausted hstop

/-- Outcomes that are not refusals do not tell what form refusals take. -/
theorem matches_otherRefusal {o₁ o₂ : Outcome Value}
    (h : (identical stopping).Matches depth jumps o₁ o₂) (ho : ¬ o₁.Refused) :
    (identical stopping otherRefusal).Matches depth jumps o₁ o₂ := by
  cases h with
  | done hvalue hagree =>
    exact .done (related_changeRefusal hvalue) (agree_changeRefusal hagree)
  | @left e₁ e₂ m₁ m₂ hexit hjumps hagree =>
    refine .left ⟨hexit.moved, ?_⟩ hjumps (agree_changeRefusal hagree)
    cases e₁ with
    | returned v =>
      exact congrArg Exit.returned (Fixes.recode_eq (ρ := .still otherRefusal) v)
    | failed problem loc =>
      refine congrArg (Exit.failed · loc) (recode_still_eq_self fun limit name => ?_)
      rintro rfl
      exact ho ⟨limit, name, loc, m₁, rfl⟩
    | _ => rfl
  | exhausted hstop => exact .exhausted hstop

end Comparison.identical

section

variable {settings : Settings}

/-- At the limit a call is refused if its arguments are as they should be. -/
theorem refused_of_makes {n : Nat} {task : Task} {m m' : Machine} {call : Call}
    {loc : Location}
    (hmakes : (Evaluator.bounded settings n).Makes task m call loc m')
    (hlimit : settings.callLimit ≤ m'.callDepth) (hchecked : call.Checked loc m') :
    ∃ m'', evaluate settings (n + 1) task m = .left (.failed
      (.recursionDepth settings.callLimit call.name) loc) m'' := by
  change ∃ m'', (Evaluator.bounded settings n).evalTask task m = _
  rw [Evaluator.evalTask_of_makes hmakes]
  exact Evaluator.perform_refused hlimit hchecked

open Classical in
/-- Gives the same, but comes to the end of the bound in place of a refusal. -/
noncomputable def unrefusedRun (run : Task → Eval Value) : Task → Eval Value :=
  fun task m => if (run task m).Refused then .exhausted else run task m

theorem unrefusedRun_cases (run : Task → Eval Value) (task : Task) (m : Machine) :
    unrefusedRun run task m = .exhausted ∨
      unrefusedRun run task m = run task m ∧ ¬ (run task m).Refused := by
  by_cases h : (run task m).Refused
  · exact Or.inl (if_pos h)
  · exact Or.inr ⟨if_neg h, h⟩

/-- The parts of a run without the refusals among them. -/
noncomputable def Settings.unrefused (settings : Settings) (n : Nat) :
    Evaluator where
  settings := settings
  rounds := n
  run := unrefusedRun (evaluate settings n)

theorem followsAll_unrefused (settings : Settings) (n depth : Nat) :
    (identical .together otherRefusal).FollowsAll (settings.unrefused n)
      (settings.unrefused n) depth := by
  refine identical.followsAll_iff.mpr fun task m hm => ?_
  have hself := identical.followsAll_iff.mp
    (identical.followsAll_self settings n depth) task m hm
  change Matches _ _ _ (unrefusedRun (evaluate settings n) task m)
    (unrefusedRun (evaluate settings n) task m)
  rcases unrefusedRun_cases (evaluate settings n) task m with
    hend | ⟨heq, hunrefused⟩
  · rw [hend]
    exact .exhausted rfl
  · rw [heq]
    exact identical.matches_otherRefusal hself hunrefused

theorem unrefused_followed (settings : Settings) (n depth : Nat) :
    (identical .alone).FollowsAll (settings.unrefused n) (.bounded settings n)
      depth := by
  refine identical.followsAll_iff.mpr fun task m hm => ?_
  have hall : (identical .alone).FollowsAll (.bounded settings n)
      (.bounded settings n) depth :=
    identical.followsAll settings (by nofun) (Or.inl rfl) depth
  have hself := identical.followsAll_iff.mp hall task m hm
  change Matches _ _ _ (unrefusedRun (evaluate settings n) task m) _
  rcases unrefusedRun_cases (evaluate settings n) task m with hend | ⟨heq, -⟩
  · rw [hend]
    exact .exhausted trivial
  · rw [heq]
    exact hself

/-- Below the limit no rule refuses anything by itself. -/
theorem not_refused_below_limit (settings : Settings) (n : Nat) {limit : Nat}
    (task : Task) {m : Machine} (h : m.callDepth < limit) :
    ¬ (((settings.unrefused n).withLimit limit).evalTask task m).Refused := by
  have hall : ∀ depth, (identical .together otherRefusal).FollowsAll
      ((settings.unrefused n).withLimit limit)
      ((settings.unrefused n).withLimit limit) depth :=
    fun depth => (followsAll_unrefused settings n depth).of_run rfl rfl
  have hnext : (identical .together otherRefusal).FollowsAll
      { settings, rounds := n,
        run := ((settings.unrefused n).withLimit limit).evalTask }
      { settings, rounds := n,
        run := ((settings.unrefused n).withLimit limit).evalTask } m.callDepth :=
    (hall m.callDepth).next rfl rfl (Recoding.still_keeps _) (by nofun)
      (identical.alike rfl (Or.inl rfl)) fun k =>
        (hall m.callDepth).sides (Or.inl rfl) (fun _ => hall (m.callDepth + 1))
          (fun hlimit => (Nat.not_le_of_lt h hlimit).elim) k
  exact identical.not_refused_of_matches
    (identical.followsAll_iff.mp hnext task m rfl)

/-- A task that is refused without resting on parts that are refused makes a call
at the limit whose arguments are as they should be. -/
theorem makes_of_refused {n : Nat} {task : Task} {m : Machine}
    (hrefused : (evaluate settings (n + 1) task m).Refused)
    (hrests : RestsOn (fun task m => ¬ (evaluate settings n task m).Refused)
      (evaluate settings n) (settings.outcome n task m)) :
    ∃ call loc m', (Evaluator.bounded settings n).Makes task m call loc m' ∧
      settings.callLimit ≤ m'.callDepth ∧ m'.callDepth = m.callDepth ∧
      call.Checked loc m' := by
  have hself : ∀ depth, (identical .together).FollowsAll (settings.unrefused n)
      (settings.unrefused n) depth := fun depth =>
    identical.followsAll_plain (followsAll_unrefused settings n depth)
  have hsame : (settings.unrefused n).evalTask task m =
      evaluate settings (n + 1) task m :=
    hrests (unrefusedRun (evaluate settings n)) fun task m h => if_neg h
  -- A limit that the rule does not reach.
  let limit := max settings.callLimit (m.callDepth + 1)
  have hlow : (settings.unrefused n).settings.callLimit ≤ limit :=
    Nat.le_max_left _ _
  rcases identical.evalTask_withLimit hself task m hlow with
    heq | ⟨call, loc, m', hmakes, hlimit, hchecked⟩
  · have hbelow : m.callDepth < limit := Nat.le_max_right _ _
    refine (not_refused_below_limit settings n task hbelow ?_).elim
    rw [heq, hsame]
    exact hrefused
  · exact ⟨call, loc, m',
      identical.makes_of_followsAll (unrefused_followed settings n _) hmakes,
      hlimit, identical.callDepth_of_makes (hself _) hmakes, hchecked⟩

/-! ### Raising the limit -/

def Unrefused (_ : Task) (_ : Machine) (o : Outcome Value) : Prop := ¬ o.Refused

/-- A task throughout which nothing is refused ends in the same way under a higher
limit. -/
theorem evaluate_eq_of_unrefused {limit : Nat} (hle : settings.callLimit ≤ limit)
    (n : Nat) (task : Task) (m : Machine)
    (h : Throughout settings Unrefused n task m) :
    evaluate { settings with callLimit := limit } n task m =
      evaluate settings n task m := by
  induction n generalizing task m with
  | zero => rfl
  | succ n ih =>
    obtain ⟨hunrefused, hrests⟩ := h
    let raised : Settings := { settings with callLimit := limit }
    have hsame : settings.outcome n task m (evaluate raised n) =
        evaluate settings (n + 1) task m := hrests (evaluate raised n) ih
    have hself : ∀ depth, (identical .together).FollowsAll
        { settings, rounds := n, run := evaluate raised n }
        { settings, rounds := n, run := evaluate raised n } depth := fun depth =>
      (identical.followsAll_self raised n depth).of_run rfl rfl
    rcases identical.evalTask_withLimit hself task m hle with
      heq | ⟨call, loc, m', hmakes, hlimit, hchecked⟩
    · exact heq.trans hsame
    · obtain ⟨m'', hperform⟩ := Evaluator.perform_refused hlimit hchecked
      have hrefused := (Evaluator.evalTask_of_makes hmakes).trans hperform
      exact (hunrefused (hsame ▸ ⟨_, _, _, _, hrefused⟩)).elim

theorem program_eq_of_unrefused {limit : Nat} (hle : settings.callLimit ≤ limit)
    (n : Nat) (p : Program) (m : Machine)
    (h : ThroughoutProgram settings Unrefused n p m) :
    (Evaluator.bounded { settings with callLimit := limit } n).program p m =
      (Evaluator.bounded settings n).program p m := by
  let raised : Settings := { settings with callLimit := limit }
  have hsame : settings.programOutcome n p m (evaluate raised n) =
      (Evaluator.bounded settings n).program p m :=
    h (evaluate raised n) (evaluate_eq_of_unrefused hle n)
  have hall : (identical .together).FollowsAll (.bounded raised n)
      { settings, rounds := n, run := evaluate raised n } m.callDepth :=
    (identical.followsAll_self raised n m.callDepth).of_run rfl rfl
  exact (identical.eq_of_matches_together (identical.program_matches hall p)).trans
    hsame

end

/-- Throughout a run, up to whatever bound, there are never more calls under way than
the limit.  A call at the limit whose arguments are as many as they should be, and
of the right types, is refused, and a task that does not rest on a refused part is
refused only for such a call.  A run throughout which nothing is refused, started
from the same machine and so with the same layout of its maps in memory, ends in the
same way under every higher limit, with all that it leaves behind. -/
theorem call_limit_exact_and_monotone (settings : Settings) (n : Nat) :
    (∀ task m, m.callDepth ≤ settings.callLimit →
      Throughout settings (WithinLimit settings.callLimit) n task m) ∧
    (∀ p m, m.callDepth ≤ settings.callLimit →
      ThroughoutProgram settings (WithinLimit settings.callLimit) n p m) ∧
    (∀ task m call loc m',
      (Evaluator.bounded settings n).Makes task m call loc m' →
      m'.callDepth = settings.callLimit → call.Checked loc m' →
      ∃ m'', evaluate settings (n + 1) task m = .left (.failed
        (.recursionDepth settings.callLimit call.name) loc) m'') ∧
    (∀ task m, m.callDepth ≤ settings.callLimit →
      (evaluate settings (n + 1) task m).Refused →
      RestsOn (fun task m => ¬ (evaluate settings n task m).Refused)
        (evaluate settings n) (settings.outcome n task m) →
      ∃ call loc m', (Evaluator.bounded settings n).Makes task m call loc m' ∧
        m'.callDepth = settings.callLimit ∧ call.Checked loc m') ∧
    ∀ limit, settings.callLimit ≤ limit → ∀ p m,
      ThroughoutProgram settings Unrefused n p m →
      (Evaluator.bounded { settings with callLimit := limit } n).program p m =
        (Evaluator.bounded settings n).program p m := by
  refine ⟨fun task m h => throughout_withinLimit n task h,
    fun p m h => throughoutProgram_withinLimit n p h,
    fun task m call loc m' hmakes hlimit hchecked =>
      refused_of_makes hmakes (Nat.le_of_eq hlimit.symm) hchecked,
    fun task m h hrefused hrests => ?_,
    fun limit hle p m h => program_eq_of_unrefused hle n p m h⟩
  obtain ⟨call, loc, m', hmakes, hlimit, hdepth, hchecked⟩ :=
    makes_of_refused hrefused hrests
  exact ⟨call, loc, m', hmakes, Nat.le_antisymm (hdepth ▸ h) hlimit, hchecked⟩

/-- An arrow function without parameters. -/
def arrowOne : Expr := .arrow [] (.int 1 default) default

/-- A call of it, on the spot. -/
def callOne : Stmt := .expr (.call arrowOne [] default) default

theorem throughout_callOne :
    ThroughoutProgram ⟨1, .standard⟩ Unrefused 3 ⟨[callOne], default⟩ {} := by
  have hcall : Throughout ⟨1, .standard⟩ Unrefused 2
      (.expr (.call arrowOne [] default) Arena.root) {} := by
    refine ⟨Outcome.not_refused_done _ _, fun other hother => ?_⟩
    have hmade : other (.expr arrowOne Arena.root) {} =
        evaluate ⟨1, .standard⟩ 1 (.expr arrowOne Arena.root) {} :=
      hother _ _ (.of_leaf (fun _ => rfl) (Outcome.not_refused_done _ _))
    have hone : ∀ frame m,
        other (.expr (.int 1 default) frame) m = .done (.int 1) m :=
      fun frame m => hother _ _
        (.of_leaf (fun _ => rfl) (Outcome.not_refused_done _ _))
    let ev : Evaluator := ⟨⟨1, .standard⟩, 1, other⟩
    have hbody : ∀ frame, ev.expr (.int 1 default) frame = pure (.int 1) :=
      fun frame => funext fun m => hone frame m
    change Eval.bind (other (.expr arrowOne Arena.root)) _ _ = _
    unfold Eval.bind
    rw [hmade]
    change ev.callArrow ⟨0, [], .int 1 default, Arena.root⟩ [] default _ = _
    rw [Evaluator.callArrow_eq rfl]
    simp only [hbody]
    rfl
  intro other hother
  have hstmt : other (.stmt callOne Arena.root) {} =
      evaluate ⟨1, .standard⟩ 3 (.stmt callOne Arena.root) {} :=
    hother _ _ ⟨Outcome.not_refused_done _ _,
      fun other hother => hother _ _ hcall⟩
  exact Eval.bind_congr_left (Eval.complete_congr (Eval.bind_congr_left hstmt))

/-- At the limit an arrow function is refused, below it the run is the same under a
higher limit. -/
theorem call_limit_exact_and_monotone_callOne :
    let f : ArrowClosure := ⟨0, [], .int 1 default, Arena.root⟩
    let task : Task := .apply (.arrow f) [] default
    let p : Program := ⟨[callOne], default⟩
    ((Evaluator.bounded ⟨0, .standard⟩ 3).Makes task {} (.arrow f []) default {} ∧
      Call.Checked default {} (.arrow f []) ∧
      ∃ m, evaluate ⟨0, .standard⟩ 4 task {} =
        .left (.failed (.recursionDepth 0 Evaluator.arrowName) default) m) ∧
    ThroughoutProgram ⟨1, .standard⟩ Unrefused 3 p {} ∧
      (Evaluator.bounded ⟨8, .standard⟩ 3).program p {} =
        (Evaluator.bounded ⟨1, .standard⟩ 3).program p {} := by
  intro f task p
  obtain ⟨-, -, hrefused, -, -⟩ := call_limit_exact_and_monotone ⟨0, .standard⟩ 3
  obtain ⟨-, -, -, -, hraise⟩ := call_limit_exact_and_monotone ⟨1, .standard⟩ 3
  have hmakes : (Evaluator.bounded ⟨0, .standard⟩ 3).Makes task {} (.arrow f [])
      default {} := ⟨_, rfl, rfl⟩
  have hchecked : Call.Checked default {} (.arrow f []) := rfl
  exact ⟨⟨hmakes, hchecked, hrefused task {} _ _ _ hmakes rfl hchecked⟩,
    throughout_callOne, hraise 8 (by decide) p {} throughout_callOne⟩

end Script
