import Script.Proofs.Eval.Arithmetic

/-!
# Three ways to step a counter

A counter can be stepped behind its name, in front of it, and by a compound assignment.
The last has a rule of its own, which goes through the addition of any two values.  All
three evaluate what is in the target once and write the same integer to the same place;
only their own values differ.
-/

namespace Script

open Scope (Arena FrameId)

/-! ### Steps and targets -/

/-- What can be written to: a name, an element or a member. -/
inductive Expr.IsTarget : Expr → Prop where
  | name (id : Name) : IsTarget (.name id)
  | index (left position : Expr) (loc : Location) : IsTarget (.index left position loc)
  | member (object : Expr) (property : Name) (loc : Location) :
      IsTarget (.member object property loc)

/-- The ways to write a step. -/
inductive StepForm where
  /-- Behind the target, such as `t++`. -/
  | behind (loc : Location)
  /-- In front of the target, such as `++t`. -/
  | inFront (loc : Location)
  /-- As a compound assignment, such as `t += 1`. -/
  | compound (one loc : Location)

/-- The compound assignment that adds what a step adds, or subtracts its negative. -/
def StepOp.assignOp : StepOp → AssignOp
  | increment => .add
  | decrement => .sub

namespace StepForm

variable (f : StepForm)

/-- The whole expression. -/
def expr (op : StepOp) (target : Expr) : Expr :=
  match f with
  | behind loc => .step op target loc
  | inFront loc => .unary op.prefixOp target loc
  | compound one loc => .assign target op.assignOp (.int 1 one) loc

/-- The value of a step from `old` to `new`. -/
def value (old new : Int64) : Int64 :=
  match f with
  | behind _ => old
  | inFront _ | compound .. => new

end StepForm

/-- Integers are written as what they are. -/
def Evaluator.ReadsIntegers (ev : Evaluator) : Prop :=
  ∀ n loc frame m, ev.expr (.int n loc) frame m = .done (.int n) m

theorem Evaluator.readsIntegers_bounded (settings : Settings) (n : Nat) :
    (bounded settings (n + 1)).ReadsIntegers :=
  fun _ _ _ _ => rfl

/-- The expression is evaluated by evaluating the parts, each one once, from the first to
the last.  What is made of their values is the same with every evaluator, so that nothing
else is evaluated, integers apart. -/
def Expr.EvaluatesOnce (e : Expr) (parts : List Expr) : Prop :=
  ∀ frame, ∃ rest : List Value → Eval Value, ∀ ev : Evaluator, ev.ReadsIntegers →
    ev.evalExpr frame e = Eval.collect (fun part => ev.expr part frame) parts >>= rest

/-! ### Targets -/

/-- The value of a place, if there is one. -/
def Eval.readPlace? (frame : FrameId) : Option Place → Eval Value
  | some place => readPlace frame place
  | none => outOfBound

namespace Evaluator

variable (ev : Evaluator) {frame : FrameId} {m m₁ : Machine} {target : Expr}

/-- To read a target is to find its place and to read that. -/
theorem evalExpr_of_isTarget (htarget : target.IsTarget) (frame : FrameId) :
    ev.evalExpr frame target = ev.place? frame target >>= Eval.readPlace? frame := by
  cases htarget with
  | name id => rfl
  | index left position loc =>
    change ev.index left position loc frame = _
    simp only [index, place?, Eval.bind_assoc, Eval.pure_bind, Eval.readPlace?, Eval.readPlace]
  | member object property loc =>
    change ev.member object property loc frame = _
    simp only [member, place?, Eval.bind_assoc, Eval.pure_bind, Eval.readPlace?, Eval.readPlace]

/-- A target that gives a value has a place, and that is where the value is. -/
theorem place_of_evalExpr (htarget : target.IsTarget) {v : Value}
    (hread : ev.evalExpr frame target m = .done v m₁) :
    ∃ values place,
      Eval.InTurn (fun part => ev.expr part frame) target.targetParts m values m₁ ∧
      target.placeOf? values = some place ∧
      ev.place? frame target m = .done (some place) m₁ ∧
      Eval.readPlace frame place m₁ = .done v m₁ := by
  rw [ev.evalExpr_of_isTarget htarget] at hread
  obtain ⟨found, m₂, hplace, hvalue⟩ := Eval.done_of_bind hread
  have hparts := hplace
  rw [place?_eq] at hparts
  obtain ⟨values, m₃, hcollected, hfound⟩ := Eval.done_of_bind hparts
  obtain ⟨rfl, rfl⟩ := Outcome.done.inj hfound
  cases hknown : target.placeOf? values with
  | none =>
    rw [hknown] at hvalue
    cases hvalue
  | some place =>
    rw [hknown] at hvalue hplace
    rcases Eval.readPlace_cases frame place m₃ with ⟨v', hdone⟩ | ⟨problem, loc, hleft⟩
    · obtain ⟨rfl, rfl⟩ := Outcome.done.inj (hdone.symm.trans hvalue)
      exact ⟨values, place, Eval.inTurn_of_collect hcollected, hknown, hplace, hdone⟩
    · cases hleft.symm.trans hvalue

end Evaluator

/-! ### One step -/

/-- Only what has been noticed is open. -/
theorem Machine.GoesOnWith.eq_rest {m : Machine} {k : Int} {loc : Location}
    {new : Code → Prop} {rest : Int64 → Eval Value} {o : Outcome Value} {r : Int64}
    (h : m.GoesOnWith k loc new rest o) (hr : r.toInt = k.bmod (2 ^ 64)) :
    ∃ advisories, o = rest r { m with advisories } := by
  obtain ⟨r', m', hr', hrecords, rfl⟩ := h
  obtain ⟨advisories, rfl⟩ := hrecords.noted
  obtain rfl : r' = r := Int64.toInt_inj.mp (hr'.trans hr.symm)
  exact ⟨advisories, rfl⟩

/-- The operator of the compound assignment makes one step of an integer and 1. -/
theorem StepOp.binary_assignOp (op : StepOp) :
    ∃ binary, op.assignOp.binary? = some binary ∧ binary.IsArithmetic ∧ ¬ binary.Divides ∧
      ∀ n : Int, Operator.exact binary n 1 = n + op.amount := by
  cases op with
  | increment => exact ⟨.add, rfl, by simp [BinaryOp.IsArithmetic], by decide, fun _ => rfl⟩
  | decrement => exact ⟨.sub, rfl, by simp [BinaryOp.IsArithmetic], by decide, fun _ => rfl⟩

namespace StepForm

variable {ev : Evaluator} {frame : FrameId} {m m₁ : Machine} {target : Expr} {n r : Int64}
  {place : Place}

/-- Whichever way a step is written, the place of the target is found and read, something
may be noticed, and the next integer is written to the place. -/
theorem evalExpr_eq (f : StepForm) (op : StepOp) (hintegers : ev.ReadsIntegers)
    (hplace : ev.place? frame target m = .done (some place) m₁)
    (hread : Eval.readPlace frame place m₁ = .done (.int n) m₁)
    (hr : r.toInt = (n.toInt + op.amount).bmod (2 ^ 64)) :
    ∃ advisories, ev.evalExpr frame (f.expr op target) m =
      (Eval.writePlace frame (.int r) place >>= fun _ => Pure.pure (.int (f.value n r)))
        { m₁ with advisories } := by
  cases f with
  | behind loc =>
    exact (ev.step_integer op hplace hread fun ends => Pure.pure (.int ends.1)).eq_rest hr
  | inFront loc =>
    have hstep := ev.step_integer op hplace hread fun ends => Pure.pure (.int ends.2)
    cases op with
    | increment => exact hstep.eq_rest hr
    | decrement => exact hstep.eq_rest hr
  | compound one loc =>
    obtain ⟨binary, hbinary, hop, hdivides, hexact⟩ := op.binary_assignOp
    have hvalue : ev.expr (.int 1 one) frame m₁ = .done (.int 1) m₁ := hintegers 1 one frame m₁
    have hoperates := ev.assign_integers hbinary hop hplace hread hvalue loc
    rw [Machine.Operates, if_neg fun hzero => hdivides hzero.1] at hoperates
    refine hoperates.eq_rest (hr.trans ?_)
    exact congrArg (Int.bmod · (2 ^ 64)) (hexact n.toInt).symm

/-- Each way evaluates what is in the target, and nothing else. -/
theorem evaluatesOnce (f : StepForm) (op : StepOp) (target : Expr) :
    (f.expr op target).EvaluatesOnce target.targetParts := by
  intro frame
  have hstep : ∃ rest : List Value → Eval (Int64 × Int64), ∀ ev : Evaluator,
      ev.step op target frame =
        Eval.collect (fun part => ev.expr part frame) target.targetParts >>= rest := by
    -- What follows the parts is left to unification: it is all that the rule does next.
    apply Exists.intro
    intro ev
    unfold Evaluator.step
    rw [Evaluator.place?_eq, Eval.bind_assoc]
  obtain ⟨rest, hstep⟩ := hstep
  cases f with
  | behind loc =>
    refine ⟨fun values => rest values >>= fun ends => Pure.pure (.int ends.1), fun ev _ => ?_⟩
    rw [← Eval.bind_assoc, ← hstep]
    rfl
  | inFront loc =>
    refine ⟨fun values => rest values >>= fun ends => Pure.pure (.int ends.2), fun ev _ => ?_⟩
    rw [← Eval.bind_assoc, ← hstep]
    cases op <;> rfl
  | compound one loc =>
    apply Exists.intro
    intro ev hintegers
    have hone : ev.expr (.int 1 one) frame = Pure.pure (.int 1) :=
      funext (hintegers 1 one frame)
    change ev.assign target op.assignOp (.int 1 one) loc frame = _
    unfold Evaluator.assign
    rw [Evaluator.place?_eq, Eval.bind_assoc, hone]

end StepForm

/-- All ways to write a step of `n` end alike: as the write of `r` ends, and on the machine
that it leaves, but for what has been noticed. -/
inductive StepForm.EndAlike (n r : Int64) (m : Machine) (write : Outcome Unit)
    (run : StepForm → Outcome Value) : Prop where
  | stepped {m' : Machine} (hwrite : write = .done () m')
      (hrun : ∀ f, ∃ m'', m'.Noted m'' ∧ run f = .done (.int (f.value n r)) m'')
  | failed {problem : Problem} {loc : Location} (hwrite : write = .left (.failed problem loc) m)
      (hrun : ∀ f, ∃ m'', m.Noted m'' ∧ run f = .left (.failed problem loc) m'')

theorem StepForm.endAlike_of_eq {n r : Int64} {m : Machine} {write : Eval Unit}
    (hwrite : Eval.Unaware write m) {run : StepForm → Outcome Value}
    (hrun : ∀ f, ∃ advisories, run f =
      (write >>= fun _ => Pure.pure (.int (f.value n r))) { m with advisories }) :
    EndAlike n r m (write m) run := by
  cases hwrite with
  | done m' hdone =>
    refine .stepped (hdone m.advisories) fun f => ?_
    obtain ⟨advisories, hf⟩ := hrun f
    refine ⟨_, ⟨advisories, rfl⟩, hf.trans ?_⟩
    exact Eval.bind_of_done (hdone advisories)
  | failed problem loc hfailed =>
    refine .failed (hfailed m.advisories) fun f => ?_
    obtain ⟨advisories, hf⟩ := hrun f
    refine ⟨_, ⟨advisories, rfl⟩, hf.trans ?_⟩
    exact Eval.bind_of_left (hfailed advisories)

/-- Take a name, an element or a member that gives the integer `n`, whatever is evaluated
for it.  `t++`, `++t` and `t += 1` evaluate the parts of this target once, one after
another, and find the same place.  Then they all write the next integer there, reduced to
the integers that programs have, and either all fail with the same problem or all
succeed, with `n` for the first and the next integer for the other two.  What they leave
is the same but for what has been noticed.  The same holds of `t--`, `--t` and `t -= 1`
and the integer before `n`.  The bound is one that is enough for a literal in an
expression. -/
theorem steps_agree (settings : Settings) (op : StepOp) {target : Expr}
    (htarget : target.IsTarget) (bound : Nat) {frame : FrameId} {m m₁ : Machine} {n : Int64}
    (hread : evaluate settings (bound + 2) (.expr target frame) m = .done (.int n) m₁) :
    (∀ f : StepForm, (f.expr op target).EvaluatesOnce target.targetParts) ∧
    ∃ values place r,
      Eval.InTurn (fun part => evaluate settings (bound + 1) (.expr part frame))
        target.targetParts m values m₁ ∧
      target.placeOf? values = some place ∧
      r.toInt = (n.toInt + op.amount).bmod (2 ^ 64) ∧
      StepForm.EndAlike n r m₁ (Eval.writePlace frame (.int r) place m₁)
        fun f => evaluate settings (bound + 2) (.expr (f.expr op target) frame) m := by
  have hintegers := Evaluator.readsIntegers_bounded settings bound
  obtain ⟨values, place, hturn, hknown, hplace, hvalue⟩ :=
    (Evaluator.bounded settings (bound + 1)).place_of_evalExpr htarget hread
  have hr : (Int64.ofInt (n.toInt + op.amount)).toInt = (n.toInt + op.amount).bmod (2 ^ 64) :=
    Int64.toInt_ofInt
  refine ⟨fun f => f.evaluatesOnce op target, values, place, _, hturn, hknown, hr, ?_⟩
  apply StepForm.endAlike_of_eq (Eval.unaware_writePlace frame _ place m₁)
  intro f
  exact f.evalExpr_eq op hintegers hplace hvalue hr

/-- The first item of the pair. -/
def firstOfPair : Expr := .index (.name ⟨"a", default⟩) (.int 0 default) default

/-- The first number of a range. -/
def firstOfRange : Expr :=
  .index (.range (.int 3 default) (.int 5 default) default) (.int 0 default) default

/-- An item of an array is stepped down, and a number of a range cannot be. -/
theorem steps_agree_firstItems :
    (evaluate ⟨1, .empty⟩ 3 (.expr firstOfPair Arena.root) pairMachine =
        .done (.int 1) pairMachine ∧
      StepForm.EndAlike 1 0 pairMachine
        (.done () { pairMachine with heap := { arrays := #[#[.int 0, .int 2]] } })
        fun f => evaluate ⟨1, .empty⟩ 3 (.expr (f.expr .decrement firstOfPair) Arena.root)
          pairMachine) ∧
    evaluate ⟨1, .empty⟩ 3 (.expr firstOfRange Arena.root) pairMachine =
        .done (.int 3) pairMachine ∧
      StepForm.EndAlike 3 2 pairMachine
        (.left (.failed (.assignment "index of RANGE") default) pairMachine)
        fun f => evaluate ⟨1, .empty⟩ 3 (.expr (f.expr .decrement firstOfRange) Arena.root)
          pairMachine := by
  constructor
  · have hread : evaluate ⟨1, .empty⟩ 3 (.expr firstOfPair Arena.root) pairMachine =
        .done (.int 1) pairMachine := rfl
    obtain ⟨-, values, place, r, hturn, hplace, hr, halike⟩ :=
      steps_agree ⟨1, .empty⟩ .decrement (.index _ _ _) 1 hread
    obtain rfl : r = 0 := Int64.toInt_inj.mp (hr.trans (by decide))
    obtain ⟨rfl, -⟩ := hturn.unique (.cons rfl (.cons rfl (.nil pairMachine)))
    cases hplace
    exact ⟨hread, halike⟩
  · have hread : evaluate ⟨1, .empty⟩ 3 (.expr firstOfRange Arena.root) pairMachine =
        .done (.int 3) pairMachine := rfl
    obtain ⟨-, values, place, r, hturn, hplace, hr, halike⟩ :=
      steps_agree ⟨1, .empty⟩ .decrement (.index _ _ _) 1 hread
    obtain rfl : r = 2 := Int64.toInt_inj.mp (hr.trans (by decide))
    obtain ⟨rfl, -⟩ := hturn.unique (.cons rfl (.cons rfl (.nil pairMachine)))
    cases hplace
    exact ⟨hread, halike⟩

end Script
