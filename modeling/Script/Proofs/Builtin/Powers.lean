import Mathlib.Algebra.GroupWithZero.Basic
import Mathlib.Algebra.Ring.Int.Defs
import Script.Proofs.Builtin.Splitting
import Script.Proofs.Value.Arithmetic

/-!
# Powers

Powers of integers are exact and do not wrap around: where a power is none of the integers
that programs have, there is a float instead.  Exponents of more than 32 bits always lead
to a float, which matters for the powers of -1, 0 and 1 only.
-/

namespace Script

open Operator (OutOfRange)

namespace Builtin

variable {base : Int} {exponent : Nat}

/-! ### The exact power -/

/-- Powers of -1, 0 and 1 are the same again two exponents later. -/
theorem pow_add_two (hbase : -1 ≤ base ∧ base ≤ 1) (hexponent : exponent ≠ 0) :
    base ^ (exponent + 2) = base ^ exponent := by
  obtain rfl | rfl | rfl : base = -1 ∨ base = 0 ∨ base = 1 := by omega
  · rw [pow_add]
    exact mul_one _
  · rw [zero_pow hexponent, zero_pow (by omega)]
  · rw [one_pow, one_pow]

theorem pow_remainder_add_two (hbase : -1 ≤ base ∧ base ≤ 1) (hexponent : exponent ≠ 0) :
    base ^ (exponent % 2 + 2) = base ^ exponent := by
  -- Two steps at a time: neither the remainder nor the power changes.
  induction exponent using Nat.strongRecOn with
  | ind exponent ih =>
    obtain rfl | rfl | ⟨before, rfl, hbefore⟩ : exponent = 1 ∨ exponent = 2 ∨
        ∃ before, exponent = before + 2 ∧ before ≠ 0 := by
      rcases exponent with - | - | - | exponent
      · exact absurd rfl hexponent
      · exact Or.inl rfl
      · exact Or.inr (Or.inl rfl)
      · exact Or.inr (Or.inr ⟨exponent + 1, rfl, Nat.succ_ne_zero exponent⟩)
    · exact pow_add_two hbase (by decide)
    · rfl
    · calc base ^ ((before + 2) % 2 + 2)
        _ = base ^ (before % 2 + 2) := by rw [Nat.add_mod_right]
        _ = base ^ before := ih before (by omega) hbefore
        _ = base ^ (before + 2) := (pow_add_two hbase hbefore).symm

/-- From the exponent 64 on, the powers of all other numbers are too large. -/
theorem outOfRange_pow (hbase : ¬ (-1 ≤ base ∧ base ≤ 1)) (hexponent : 64 ≤ exponent) :
    OutOfRange (base ^ exponent) := by
  have hlarge : 2 ^ 64 ≤ (base ^ exponent).natAbs :=
    calc 2 ^ 64
      _ ≤ 2 ^ exponent := Nat.pow_le_pow_right (by decide) hexponent
      _ ≤ base.natAbs ^ exponent := Nat.pow_le_pow_left (by omega) exponent
      _ = (base ^ exponent).natAbs := (Int.natAbs_pow base exponent).symm
  unfold OutOfRange
  omega

theorem not_outOfRange_pow (hbase : -1 ≤ base ∧ base ≤ 1) (exponent : Nat) :
    ¬ OutOfRange (base ^ exponent) := by
  have hsmall : (base ^ exponent).natAbs ≤ 1 :=
    calc (base ^ exponent).natAbs
      _ = base.natAbs ^ exponent := Int.natAbs_pow base exponent
      _ ≤ 1 ^ exponent := Nat.pow_le_pow_left (by omega) exponent
      _ = 1 := one_pow exponent
  unfold OutOfRange
  omega

/-- Whatever exponent the power is computed with, it is the exact one. -/
theorem exactPower?_eq (base : Int) (exponent : Nat) :
    exactPower? base exponent =
      if OutOfRange (base ^ exponent) then none else some (base ^ exponent) := by
  unfold exactPower?
  by_cases hbase : -1 ≤ base ∧ base ≤ 1
  · by_cases hzero : exponent = 0
    · subst hzero
      simp only [if_pos hbase]
      exact Operator.ite_fits (base ^ 0) (base ^ 0)
    · simp only [if_pos hbase, if_neg hzero]
      rw [if_neg (by omega)]
      change (if Operator.fits (base ^ (exponent % 2 + 2)) then
        some (base ^ (exponent % 2 + 2)) else none) = _
      rw [pow_remainder_add_two hbase hzero]
      exact Operator.ite_fits _ _
  · simp only [if_neg hbase]
    by_cases hlarge : 64 ≤ exponent
    · rw [if_pos hlarge, if_pos (outOfRange_pow hbase hlarge)]
    · rw [if_neg hlarge]
      exact Operator.ite_fits (base ^ exponent) (base ^ exponent)

/-! ### Powers of integers that programs have -/

/-- The exponent has more than 32 bits and the power would fit all the same: it is one of
-1, 0 or 1. -/
def OverlooksPower (base exponent : Int64) : Prop :=
  2 ^ 32 ≤ exponent.toInt ∧ -1 ≤ base.toInt ∧ base.toInt ≤ 1

instance (base exponent : Int64) : Decidable (OverlooksPower base exponent) :=
  inferInstanceAs (Decidable (_ ∧ _ ∧ _))

section

variable {base exponent : Int64}

theorem OverlooksPower.not_outOfRange (h : OverlooksPower base exponent) :
    ¬ OutOfRange (base.toInt ^ exponent.toInt.toNat) :=
  not_outOfRange_pow h.2 _

/-- There is an integer for a power that fits, unless it is overlooked. -/
theorem integerPower?_of_fits (hexponent : 0 ≤ exponent.toInt)
    (hseen : ¬ OverlooksPower base exponent)
    (hfits : ¬ OutOfRange (base.toInt ^ exponent.toInt.toNat)) :
    integerPower? base exponent = some (Int64.ofInt (base.toInt ^ exponent.toInt.toNat)) := by
  -- With an exponent of more bits, only what is overlooked would fit.
  have hbits : exponent.toInt < 2 ^ 32 := by
    by_contra hlarge
    refine hfits (outOfRange_pow (fun hbase => hseen ⟨by omega, hbase⟩) ?_)
    omega
  unfold integerPower?
  dsimp only
  rw [if_pos ⟨hexponent, hbits⟩, exactPower?_eq, if_neg hfits]
  rfl

theorem integerPower?_of_outOfRange (hout : OutOfRange (base.toInt ^ exponent.toInt.toNat)) :
    integerPower? base exponent = none := by
  unfold integerPower?
  dsimp only
  rw [exactPower?_eq, if_pos hout]
  exact ite_self none

theorem integerPower?_of_overlooks (h : OverlooksPower base exponent) :
    integerPower? base exponent = none := by
  unfold integerPower?
  dsimp only
  exact if_neg fun hsmall => absurd hsmall.2 (Int.not_lt.mpr h.1)

end

end Builtin

/-! ### Calls -/

/-- A power with an exponent that is not negative is the exact integer if there is one,
and the float power of the two numbers otherwise.  The only powers that fit and are not
given as integers are those of -1, 0 and 1 with an exponent of more than 32 bits. -/
theorem pow_exact_or_float (ev : Evaluator) (loc : Location) (m : Machine)
    (base exponent : Int64) (hexponent : 0 ≤ exponent) :
    let power := base.toInt ^ exponent.toInt.toNat
    let outcome := ev.callBuiltin .pow [.int base, .int exponent] loc m
    let float := Value.float (base.toFloat.pow exponent.toFloat)
    (¬ Builtin.OverlooksPower base exponent →
      (¬ OutOfRange power → ∃ n : Int64, n.toInt = power ∧ outcome = .done (.int n) m) ∧
      (OutOfRange power → outcome = .done float m)) ∧
    (Builtin.OverlooksPower base exponent → ¬ OutOfRange power ∧ outcome = .done float m) := by
  intro power outcome float
  have hexponent : 0 ≤ exponent.toInt := Int64.le_iff_toInt_le.mp hexponent
  have hinteger : ∀ n, Builtin.integerPower? base exponent = some n →
      outcome = .done (.int n) m := by
    intro n hn
    refine ev.callBuiltin_of_reply loc m rfl ?_
    rw [Builtin.replyPow, hn]
  have hfloat : Builtin.integerPower? base exponent = none → outcome = .done float m := by
    intro hnone
    refine ev.callBuiltin_of_reply loc m rfl ?_
    rw [Builtin.replyPow, hnone]
    rfl
  refine ⟨fun hseen => ⟨fun hfits => ?_, fun hout => ?_⟩, fun hoverlooks => ⟨?_, ?_⟩⟩
  · refine ⟨Int64.ofInt power, ?_, ?_⟩
    · unfold OutOfRange at hfits
      exact Int64.toInt_ofInt_of_le (by omega) (by omega)
    · exact hinteger _ (Builtin.integerPower?_of_fits hexponent hseen hfits)
  · exact hfloat (Builtin.integerPower?_of_outOfRange hout)
  · exact hoverlooks.not_outOfRange
  · exact hfloat (Builtin.integerPower?_of_overlooks hoverlooks)

/-- The smallest integer is a power of -2. -/
theorem pow_exact_or_float_smallest :
    (0 : Int64) ≤ 63 ∧ ¬ Builtin.OverlooksPower (-2) 63 ∧
      idleEvaluator.callBuiltin .pow [.int (-2), .int 63] default {} =
        .done (.int Int64.minValue) {} := by
  obtain ⟨hseen, -⟩ := pow_exact_or_float idleEvaluator default {} (-2) 63 (by decide)
  obtain ⟨n, hn, hcall⟩ := (hseen (by decide)).1 (by decide)
  obtain rfl : n = Int64.minValue := Int64.toInt_inj.mp (hn.trans (by decide))
  exact ⟨by decide, by decide, hcall⟩

/-- One to the power of 2 ^ 32 is a float, although it is one. -/
theorem pow_overlooks_one :
    (1 : Int64).toInt ^ (4294967296 : Int64).toInt.toNat = 1 ∧
      idleEvaluator.callBuiltin .pow [.int 1, .int 4294967296] default {} =
        .done (.float ((1 : Int64).toFloat.pow (4294967296 : Int64).toFloat)) {} := by
  refine ⟨one_pow _, ?_⟩
  have hnone : Builtin.integerPower? 1 4294967296 = none := by decide +kernel
  refine idleEvaluator.callBuiltin_of_reply default {} rfl ?_
  rw [Builtin.replyPow, hnone]
  rfl

end Script
