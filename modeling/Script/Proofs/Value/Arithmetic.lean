import Mathlib.Algebra.Group.Int.Defs
import Mathlib.Algebra.Group.Nat.Defs
import Mathlib.Data.Int.Basic
import Script.Value.Operator

/-!
# Arithmetic

The operators on integers give the exact result, reduced to the integers that programs
have.  A report says that the exact result is none of these, or that the remainder counts
as too large.
-/

namespace Script

/-- The operators that give integers for integers. -/
def BinaryOp.IsArithmetic (op : BinaryOp) : Prop :=
  op = .add ∨ op = .sub ∨ op = .mul ∨ op = .div ∨ op = .mod

/-- The operators that are not defined for a right operand of zero. -/
def BinaryOp.Divides (op : BinaryOp) : Prop := op = .div ∨ op = .mod

instance : DecidablePred BinaryOp.Divides := fun op =>
  inferInstanceAs (Decidable (op = .div ∨ op = .mod))

namespace Operator

/-! ### Exact results -/

/-- What an operator gives for integers of any size.  A quotient is cut off, and a
remainder has the sign of the left operand. -/
def exact (op : BinaryOp) (a b : Int) : Int :=
  match op with
  | .add => a + b
  | .sub => a - b
  | .mul => a * b
  | .div => a.tdiv b
  | _ => a.tmod b

/-- The number is none of the integers that programs have. -/
def OutOfRange (n : Int) : Prop := n < -2 ^ 63 ∨ 2 ^ 63 ≤ n

instance : DecidablePred OutOfRange := fun n =>
  inferInstanceAs (Decidable (n < -2 ^ 63 ∨ 2 ^ 63 ≤ n))

/-- The result counts as too large.  A remainder never is, but it counts as too large
where the quotient is. -/
def Overflows (op : BinaryOp) (a b : Int64) : Prop :=
  match op with
  | .mod => a = Int64.minValue ∧ b = -1
  | op => OutOfRange (exact op a.toInt b.toInt)

instance (op : BinaryOp) (a b : Int64) : Decidable (Overflows op a b) :=
  match op with
  | .mod => inferInstanceAs (Decidable (a = Int64.minValue ∧ b = -1))
  | .add | .sub | .mul | .div | .eq | .ne | .lt | .gt | .le | .ge | .and | .or =>
    inferInstanceAs (Decidable (OutOfRange _))

theorem fits_iff (n : Int) : fits n = true ↔ ¬ OutOfRange n := by
  simp only [fits, OutOfRange, Bool.and_eq_true, decide_eq_true_eq]
  omega

/-- A result that is given where a number fits. -/
theorem ite_fits {α : Type} (n : Int) (r : α) :
    (if fits n then some r else none) = if OutOfRange n then none else some r := by
  by_cases hout : OutOfRange n
  · rw [if_neg (fun h => (fits_iff n).mp h hout), if_pos hout]
  · rw [if_pos ((fits_iff n).mpr hout), if_neg hout]

theorem not_outOfRange_toInt (n : Int64) : ¬ OutOfRange n.toInt := by
  have := n.le_toInt
  have := n.toInt_lt
  unfold OutOfRange
  omega

theorem bmod_of_not_outOfRange {n : Int} (h : ¬ OutOfRange n) : n.bmod (2 ^ 64) = n := by
  unfold OutOfRange at h
  exact Int.bmod_eq_of_le (by omega) (by omega)

variable {op : BinaryOp} {a b : Int64}

/-- The only quotient that is too large is that of the smallest integer and -1. -/
theorem outOfRange_tdiv_iff (hb : b ≠ 0) :
    OutOfRange (a.toInt.tdiv b.toInt) ↔ a = Int64.minValue ∧ b = -1 := by
  constructor
  · intro hout
    by_contra hother
    rcases not_and_or.mp hother with ha | hb
    · exact not_outOfRange_toInt (a / b) (Int64.toInt_div_of_ne_left a b ha ▸ hout)
    · exact not_outOfRange_toInt (a / b) (Int64.toInt_div_of_ne_right a b hb ▸ hout)
  · rintro ⟨rfl, rfl⟩
    decide

/-- The result that wraps around is the exact one modulo the number of integers. -/
theorem toInt_wrapping (hop : op.IsArithmetic) (a b : Int64) :
    (wrapping op a b).toInt = (exact op a.toInt b.toInt).bmod (2 ^ 64) := by
  rcases hop with rfl | rfl | rfl | rfl | rfl
  · exact Int64.toInt_add a b
  · exact Int64.toInt_sub a b
  · exact Int64.toInt_mul a b
  · exact Int64.toInt_div a b
  · have hmod : (a % b).toInt = a.toInt.tmod b.toInt := Int64.toInt_mod a b
    exact hmod.trans
      (bmod_of_not_outOfRange (hmod ▸ not_outOfRange_toInt (a % b))).symm

/-- The test on the way to a result, and the exact result, agree on what is too large. -/
theorem checked?_eq (hop : op.IsArithmetic) (hzero : op.Divides → b ≠ 0) :
    checked? op a b = if Overflows op a b then none else some (wrapping op a b) := by
  rcases hop with rfl | rfl | rfl | rfl | rfl
  · exact ite_fits _ _
  · exact ite_fits _ _
  · exact ite_fits _ _
  · have hb : b ≠ 0 := hzero (Or.inl rfl)
    simp only [checked?, hb, false_or, Overflows, exact, outOfRange_tdiv_iff hb]
    rfl
  · have hb : b ≠ 0 := hzero (Or.inr rfl)
    simp only [checked?, hb, false_or, Overflows]
    rfl

/-! ### Reports -/

/-- What is noticed about an operator and its operands. -/
def warnings (op : BinaryOp) (a b : Int64) : List Problem :=
  (if op = .mod ∧ (a < 0 ∨ b < 0) then [.negativeModulo] else []) ++
    if Overflows op a b then [.integerOverflow a op.text b] else []

theorem settled_eq (a : Int64) (op : String) (b : Int64) {p : Prop} [Decidable p]
    (n : Int64) :
    settled a op b (if p then none else some n) n =
      { answer := .value (.int n)
        advisories := if p then [.integerOverflow a op b] else [] } := by
  by_cases hp : p
  · rw [if_pos hp, if_pos hp]
    rfl
  · rw [if_neg hp, if_neg hp]
    rfl

/-- An operator on integers fails if it divides by zero, and never otherwise. -/
theorem integer_eq (hop : op.IsArithmetic) (a b : Int64) :
    integer op a b =
      if op.Divides ∧ b = 0 then .error .divisionByZero
      else .ok { answer := .value (.int (wrapping op a b)), advisories := warnings op a b } := by
  split
  · next hzero =>
    obtain ⟨rfl | rfl, hb⟩ := hzero
    · exact if_pos hb
    · exact if_pos hb
  · next hzero =>
    have harithmetic : arithmetic op a b =
        { answer := .value (.int (wrapping op a b))
          advisories := if Overflows op a b then [.integerOverflow a op.text b] else [] } := by
      rw [arithmetic, checked?_eq hop fun hdivides hb => hzero ⟨hdivides, hb⟩, settled_eq]
    rcases hop with rfl | rfl | rfl | rfl | rfl
    · exact congrArg Except.ok harithmetic
    · exact congrArg Except.ok harithmetic
    · exact congrArg Except.ok harithmetic
    · have hb : b ≠ 0 := fun hb => hzero ⟨Or.inl rfl, hb⟩
      exact (if_neg hb).trans (congrArg Except.ok harithmetic)
    · have hb : b ≠ 0 := fun hb => hzero ⟨Or.inr rfl, hb⟩
      refine (if_neg hb).trans (congrArg Except.ok ?_)
      rw [harithmetic]
      simp only [warnings, true_and]

/-- The only integer whose negative is too large is the smallest one. -/
theorem outOfRange_neg_iff (n : Int64) : OutOfRange (-n.toInt) ↔ n = Int64.minValue := by
  have := n.le_toInt
  have := n.toInt_lt
  rw [← Int64.toInt_inj, Int64.toInt_minValue]
  unfold OutOfRange
  omega

theorem negated_eq (n : Int64) :
    negated n =
      { answer := .value (.int (-n))
        advisories := if OutOfRange (-n.toInt) then [.integerOverflow 0 "-" n] else [] } := by
  simp only [negated, outOfRange_neg_iff, settled_eq]

end Operator

end Script
