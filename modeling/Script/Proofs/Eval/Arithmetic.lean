import Script.Proofs.Eval.Writes
import Script.Proofs.Value.Arithmetic

/-!
# Operators on integers in programs

Whichever way an operator gets to two integers, the result is the exact one, reduced to
the integers that programs have.  The place of the operator is reported exactly where the
exact result is none of them, and division by zero is the only failure.
-/

namespace Script

open Scope (Arena FrameId)
open Operator

/-- The codes of what is noticed about an operator and its operands. -/
def Operator.Notices (op : BinaryOp) (a b : Int64) (code : Code) : Prop :=
  code = .integerOverflow ∧ Overflows op a b ∨
  code = .moduloWithNegative ∧ op = .mod ∧ (a < 0 ∨ b < 0)

/-- What is added by a step. -/
def StepOp.amount : StepOp → Int
  | increment => 1
  | decrement => -1

/-- The outcome is that of `rest` for the integer that `n` is reduced to.  In addition to
what the machine knows, the codes that `new` is true of are known about the place by
then, and nothing else has changed. -/
def Machine.GoesOnWith (m : Machine) (n : Int) (loc : Location) (new : Code → Prop)
    (rest : Int64 → Eval Value) (o : Outcome Value) : Prop :=
  ∃ r m', r.toInt = n.bmod (2 ^ 64) ∧ m.Records loc new m' ∧ o = rest r m'

/-- The outcome of an operator on two integers, with what `rest` makes of the result.
Division by zero is a failure, and everything else gives a result. -/
def Machine.Operates (m : Machine) (op : BinaryOp) (a b : Int64) (loc : Location)
    (rest : Int64 → Eval Value) (o : Outcome Value) : Prop :=
  if op.Divides ∧ b = 0 then o = .left (.failed .divisionByZero loc) m
  else m.GoesOnWith (exact op a.toInt b.toInt) loc (Notices op a b) rest o

/-! ### Results and reports -/

theorem Operator.code_ite_iff (p : Prop) [Decidable p] (problem : Problem) (code : Code) :
    (∃ q ∈ if p then [problem] else [], code = q.code) ↔ code = problem.code ∧ p := by
  by_cases hp : p <;> simp [hp]

theorem Operator.code_warnings_iff (op : BinaryOp) (a b : Int64) (code : Code) :
    (∃ problem ∈ warnings op a b, code = problem.code) ↔ Notices op a b code := by
  simp only [warnings, List.mem_append, or_and_right, exists_or, code_ite_iff]
  exact or_comm

theorem Evaluator.toInt_delta (op : StepOp) : (delta op).toInt = op.amount := by
  cases op <;> decide

/-- A step is an addition, but for how it is worded. -/
theorem Evaluator.stepped_eq (op : StepOp) (old : Int64) :
    stepped op old =
      (wrapping .add old (delta op),
        if Overflows .add old (delta op) then
          [.integerOverflow old (if 0 < delta op then "+" else "-") 1]
        else []) := by
  have hadd : BinaryOp.add.IsArithmetic := Or.inl rfl
  have hzero : BinaryOp.add.Divides → delta op ≠ 0 := fun h => by cases h <;> contradiction
  unfold stepped
  rw [checked?_eq hadd hzero]
  by_cases hover : Overflows .add old (delta op)
  · rw [if_pos hover, if_pos hover]
  · rw [if_neg hover, if_neg hover]

namespace Eval

variable {m : Machine} {loc : Location}

/-- An operator on two integers, and what follows. -/
theorem binary_integers {op : BinaryOp} (hop : op.IsArithmetic) (a b : Int64)
    (loc : Location) (rest : Value → Eval Value) (m : Machine) :
    m.Operates op a b loc (fun r => rest (.int r))
      ((binary op (.int a) (.int b) loc >>= rest) m) := by
  have hasked : askHeap loc (fun h => Operator.binary h op (.int a) (.int b)) m =
      askHeap loc (fun _ => integer op a b) m := by
    rcases hop with rfl | rfl | rfl | rfl | rfl <;> rfl
  unfold Machine.Operates
  split
  · next hzero =>
    refine bind_of_left (bind_of_left (hasked.trans ?_))
    rw [integer_eq hop, if_pos hzero]
    rfl
  · next hzero =>
    obtain ⟨m', hadvised, hrecords⟩ := adviseAll_records (warnings op a b) loc m
    rw [integer_eq hop, if_neg hzero] at hasked
    simp only [code_warnings_iff] at hrecords
    refine ⟨wrapping op a b, m', toInt_wrapping hop a b, hrecords, bind_of_done ?_⟩
    exact (bind_of_done hasked).trans (bind_of_done hadvised)

/-- The negative of an integer. -/
theorem takeComputed_negated (n : Int64) (loc : Location) (m : Machine) :
    m.GoesOnWith (-n.toInt) loc
      (fun code => code = .integerOverflow ∧ OutOfRange (-n.toInt))
      (fun r => Pure.pure (.int r)) (takeComputed (negated n) loc m) := by
  obtain ⟨m', hadvised, hrecords⟩ := adviseAll_records (negated n).advisories loc m
  rw [negated_eq] at hadvised hrecords ⊢
  simp only [code_ite_iff] at hrecords
  exact ⟨-n, m', Int64.toInt_neg n, hrecords, bind_of_done hadvised⟩

/-- The computation does the same to the machine whatever has been noticed: it fails
without a change, or it leaves what has been noticed as it is. -/
inductive Unaware (c : Eval Unit) (m : Machine) : Prop where
  | done (m' : Machine)
      (h : ∀ advisories, c { m with advisories } = .done () { m' with advisories })
  | failed (problem : Problem) (loc : Location)
      (h : ∀ advisories, c { m with advisories } =
        .left (.failed problem loc) { m with advisories })

theorem unaware_storeAsked (ask : Heap → Except Problem Heap.Part) (loc : Location)
    (v : Value) (m : Machine) :
    Unaware (do let part ← askHeap loc ask; storePart part v) m := by
  cases hask : ask m.heap with
  | ok part =>
    apply Unaware.done { m with heap := m.heap.store part v }
    intro advisories
    exact storeAsked_eq (m := { m with advisories }) hask v
  | error problem =>
    apply Unaware.failed problem loc
    intro advisories
    apply bind_of_left
    rw [askHeap, hask]

theorem unaware_assignName (id : Name) (v : Value) (frame : FrameId) (m : Machine) :
    Unaware (assignName id v frame) m := by
  by_cases hconstant : m.scopes.isConstant frame id.text = true
  · apply Unaware.failed (.constantReassignment id.text) id.loc
    intro advisories
    exact congrFun (if_pos hconstant) _
  · apply Unaware.done { m with
      scopes :=
        if (m.scopes.update frame id.text v).1 then (m.scopes.update frame id.text v).2
        else (m.scopes.update frame id.text v).2.set frame id.text v }
    intro advisories
    exact congrFun (if_neg hconstant) _

theorem unaware_writePlace (frame : FrameId) (v : Value) (place : Place) (m : Machine) :
    Unaware (writePlace frame v place) m := by
  cases place with
  | name id => exact unaware_assignName id v frame m
  | element container index loc => exact unaware_storeAsked _ loc v m
  | member object name loc => exact unaware_storeAsked _ loc v m

/-- Nothing is noticed about a write. -/
theorem advisories_writePlace {frame : FrameId} {v : Value} {place : Place} {m m' : Machine}
    (h : (writePlace frame v place m).machine? = some m') : m'.advisories = m.advisories := by
  cases unaware_writePlace frame v place m with
  | done m'' hdone =>
    have hwrite : writePlace frame v place m =
        .done () { m'' with advisories := m.advisories } := hdone m.advisories
    rw [hwrite] at h
    cases h
    rfl
  | failed problem loc hfailed =>
    have hwrite : writePlace frame v place m = .left (.failed problem loc) m :=
      hfailed m.advisories
    rw [hwrite] at h
    cases h
    rfl

end Eval

namespace Evaluator

variable (ev : Evaluator) {frame : FrameId} {place : Place} {m m₁ m₂ : Machine}

theorem binary_eq {op : BinaryOp} (hop : op.IsArithmetic) (left right : Expr)
    (loc : Location) (frame : FrameId) :
    ev.binary left op right loc frame =
      ev.expr left frame >>= fun a => ev.expr right frame >>= fun b =>
        Eval.binary op a b loc := by
  rcases hop with rfl | rfl | rfl | rfl | rfl <;> rfl

/-- A step of the integer in a place, and what follows. -/
theorem step_integer (op : StepOp) {target : Expr} {old : Int64}
    (hplace : ev.place? frame target m = .done (some place) m₁)
    (hread : Eval.readPlace frame place m₁ = .done (.int old) m₁)
    (rest : Int64 × Int64 → Eval Value) :
    m₁.GoesOnWith (old.toInt + op.amount) target.loc
      (fun code => code = .integerOverflow ∧ OutOfRange (old.toInt + op.amount))
      (fun new => Eval.writePlace frame (.int new) place >>= fun _ => rest (old, new))
      ((ev.step op target frame >>= rest) m) := by
  obtain ⟨m₂, hadvised, hrecords⟩ :=
    Eval.adviseAll_records (stepped op old).2 target.loc m₁
  have hexact : exact .add old.toInt (delta op).toInt = old.toInt + op.amount :=
    congrArg (old.toInt + ·) (toInt_delta op)
  refine ⟨(stepped op old).1, m₂, ?_, ?_, ?_⟩
  · rw [stepped_eq, ← hexact]
    exact toInt_wrapping (Or.inl rfl) old (delta op)
  · rw [stepped_eq] at hrecords
    simp only [code_ite_iff, Overflows, hexact] at hrecords
    exact hrecords
  · unfold step
    rw [Eval.bind_assoc, Eval.bind_of_done hplace]
    dsimp only
    rw [Eval.bind_assoc, Eval.bind_of_done hread]
    dsimp only
    rw [Eval.bind_assoc, Eval.bind_of_done hadvised, Eval.bind_assoc]
    rfl

/-- A compound assignment reads its place before its right side is evaluated. -/
theorem assign_integers {op : AssignOp} {binary : BinaryOp} (hbinary : op.binary? = some binary)
    (hop : binary.IsArithmetic) {target value : Expr} {a b : Int64}
    (hplace : ev.place? frame target m = .done (some place) m₁)
    (hread : Eval.readPlace frame place m₁ = .done (.int a) m₁)
    (hvalue : ev.expr value frame m₁ = .done (.int b) m₂) (loc : Location) :
    m₂.Operates binary a b loc
      (fun r => Eval.writePlace frame (.int r) place >>= fun _ => Pure.pure (.int r))
      (ev.assign target op value loc frame m) := by
  have hassign : ev.assign target op value loc frame m =
      (Eval.binary binary (.int a) (.int b) loc >>= fun v =>
        Eval.writePlace frame v place >>= fun _ => Pure.pure v) m₂ := by
    unfold assign
    rw [Eval.bind_of_done hplace]
    dsimp only
    rw [hbinary]
    exact (Eval.bind_of_done hread).trans (Eval.bind_of_done hvalue)
  rw [hassign]
  exact Eval.binary_integers hop a b loc _ m₂

end Evaluator

/-- The operators `+`, `-`, `*`, `/` and `%` on two integers give the exact result, reduced
to the integers that programs have, and so do the negative sign and the steps `++` and
`--`.  The place of the operator, or that of the target of a step, is reported exactly
where the exact result is none of these integers.  A remainder is always one, but it is
reported where the quotient is none, and where an operand is negative.  To divide by zero
is the only failure; the writes of compound assignments and steps may fail on their own, but
report nothing. -/
theorem integer_operators_exact (settings : Settings) (n : Nat) (frame : FrameId)
    (m : Machine) :
    let ev := Evaluator.bounded settings n
    let run := fun e => evaluate settings (n + 1) (.expr e frame) m
    (∀ left op right loc a b m₁ m₂, op.IsArithmetic →
      ev.expr left frame m = .done (.int a) m₁ → ev.expr right frame m₁ = .done (.int b) m₂ →
      m₂.Operates op a b loc (fun r => Pure.pure (.int r)) (run (.binary left op right loc))) ∧
    (∀ target op binary value loc place a b m₁ m₂,
      AssignOp.binary? op = some binary → binary.IsArithmetic →
      ev.place? frame target m = .done (some place) m₁ →
      Eval.readPlace frame place m₁ = .done (.int a) m₁ →
      ev.expr value frame m₁ = .done (.int b) m₂ →
      m₂.Operates binary a b loc
        (fun r => Eval.writePlace frame (.int r) place >>= fun _ => Pure.pure (.int r))
        (run (.assign target op value loc))) ∧
    (∀ right loc a m₁, ev.expr right frame m = .done (.int a) m₁ →
      m₁.GoesOnWith (-a.toInt) loc
        (fun code => code = .integerOverflow ∧ OutOfRange (-a.toInt))
        (fun r => Pure.pure (.int r)) (run (.unary .minus right loc))) ∧
    (∀ op target loc place old m₁,
      ev.place? frame target m = .done (some place) m₁ →
      Eval.readPlace frame place m₁ = .done (.int old) m₁ →
      let exact := old.toInt + StepOp.amount op
      let new := fun code => code = Code.integerOverflow ∧ OutOfRange exact
      m₁.GoesOnWith exact target.loc new
        (fun r => Eval.writePlace frame (.int r) place >>= fun _ => Pure.pure (.int r))
        (run (.unary op.prefixOp target loc)) ∧
      m₁.GoesOnWith exact target.loc new
        (fun r => Eval.writePlace frame (.int r) place >>= fun _ => Pure.pure (.int old))
        (run (.step op target loc))) ∧
    ∀ v place m m', (Eval.writePlace frame v place m).machine? = some m' →
      m'.advisories = m.advisories := by
  intro ev run
  refine ⟨?_, ?_, ?_, ?_, fun _ _ _ _ => Eval.advisories_writePlace⟩
  · intro left op right loc a b m₁ m₂ hop ha hb
    change m₂.Operates op a b loc _ (ev.binary left op right loc frame m)
    rw [ev.binary_eq hop, Eval.bind_of_done ha, Eval.bind_of_done hb]
    have hoperates := Eval.binary_integers hop a b loc Pure.pure m₂
    rwa [Eval.bind_pure] at hoperates
  · intro target op binary value loc place a b m₁ m₂ hbinary hop hplace hread hvalue
    exact ev.assign_integers hbinary hop hplace hread hvalue loc
  · intro right loc a m₁ ha
    have hminus : run (.unary .minus right loc) = Eval.takeComputed (negated a) loc m₁ :=
      Eval.bind_of_done ha
    rw [hminus]
    exact Eval.takeComputed_negated a loc m₁
  · intro op target loc place old m₁ hplace hread
    refine ⟨?_, ev.step_integer op hplace hread fun ends => Pure.pure (.int ends.1)⟩
    have hstep := ev.step_integer op hplace hread fun ends => Pure.pure (.int ends.2)
    cases op with
    | increment => exact hstep
    | decrement => exact hstep

/-- A machine whose root frame has a name for the largest integer. -/
def largestMachine : Machine :=
  { scopes := Arena.new.set Arena.root "x" (.int Int64.maxValue) }

/-- The remainder of the smallest integer and -1 is zero, with both reports, and a step
leads from the largest integer to the smallest one. -/
theorem integer_operators_exact_limits :
    (∃ m, evaluate ⟨1, .empty⟩ 2 (.expr (.binary (.int Int64.minValue default) .mod
        (.int (-1) default) default) Arena.root) {} = .done (.int 0) m ∧
      Eval.isKnown m.advisories .integerOverflow default = true ∧
      Eval.isKnown m.advisories .moduloWithNegative default = true) ∧
    ∃ m, evaluate ⟨1, .empty⟩ 2 (.expr (.step .increment (.name ⟨"x", default⟩) default)
        Arena.root) largestMachine = .done (.int Int64.maxValue) m ∧
      m.scopes.get? Arena.root "x" = some (.int Int64.minValue) ∧
      Eval.isKnown m.advisories .integerOverflow default = true := by
  constructor
  · obtain ⟨hbinary, -⟩ := integer_operators_exact ⟨1, .empty⟩ 1 Arena.root {}
    have hzero : ¬ (BinaryOp.mod.Divides ∧ (-1 : Int64) = 0) := by decide
    have hoperates := hbinary (.int Int64.minValue default) .mod (.int (-1) default) default
      Int64.minValue (-1) {} {} (by simp [BinaryOp.IsArithmetic]) rfl rfl
    rw [Machine.Operates, if_neg hzero] at hoperates
    obtain ⟨r, m, hr, hrecords, hrun⟩ := hoperates
    obtain rfl : r = 0 := Int64.toInt_inj.mp (hr.trans (by decide))
    exact ⟨m, hrun,
      (hrecords.isKnown_iff _ _).mpr (Or.inr ⟨rfl, Or.inl ⟨rfl, rfl, rfl⟩⟩),
      (hrecords.isKnown_iff _ _).mpr (Or.inr ⟨rfl, Or.inr ⟨rfl, rfl, by decide⟩⟩)⟩
  · obtain ⟨-, -, -, hstep, -⟩ := integer_operators_exact ⟨1, .empty⟩ 1 Arena.root
      largestMachine
    obtain ⟨-, r, m, hr, ⟨⟨advisories, rfl⟩, hknown⟩, hrun⟩ := hstep .increment
      (.name ⟨"x", default⟩) default (.name ⟨"x", default⟩) Int64.maxValue largestMachine rfl
      rfl
    obtain rfl : r = Int64.minValue := Int64.toInt_inj.mp (hr.trans (by decide))
    exact ⟨_, hrun.trans rfl, rfl,
      (hknown _ _).mpr (Or.inr ⟨rfl, rfl, by decide⟩)⟩

end Script
