import Script.Proofs.Value.Arithmetic
import Script.Value.Range

/-!
# Numbers of a range

The number at a position can be computed from the start at once, or by going on from one
number to the next, and whether a range contains a number can be told from its bounds.
None of this leaves the integers that programs have on the way, however long the range is.
-/

namespace Script.Range

open Operator (Overflows OutOfRange)

variable {start stop : Int64} {i : Nat}

theorem size_lt (start stop : Int64) : size start stop < 2 ^ 64 := by
  have := start.le_toInt
  have := start.toInt_lt
  have := stop.le_toInt
  have := stop.toInt_lt
  unfold size
  omega

/-- As an integer, the number of numbers wraps around if it is too large. -/
theorem toInt_ofNat_size (hlong : 2 ^ 63 ≤ size start stop) :
    (Int64.ofNat (size start stop)).toInt = size start stop - 2 ^ 64 := by
  have hsize := size_lt start stop
  have hall : Int64.size = 2 ^ 64 := rfl
  rw [Int64.toInt_ofNat', hall, Int.bmod_def]
  split <;> omega

/-- No position of a range, nor the one behind its last, leads out of the integers. -/
theorem toInt_nth (hi : i ≤ size start stop) :
    (nth start stop i).toInt =
      if start ≤ stop then start.toInt + i else start.toInt - i := by
  have hposition : (Int64.ofNat i).toInt = (i : Int).bmod (2 ^ 64) := Int64.toInt_ofNat'
  have := start.le_toInt
  have := start.toInt_lt
  have := stop.le_toInt
  have := stop.toInt_lt
  unfold size at hi
  unfold nth
  split
  · next hle =>
    rw [Int64.le_iff_toInt_le] at hle
    rw [Int64.toInt_add, hposition, Int.add_bmod_bmod]
    exact Int.bmod_eq_of_le (by omega) (by omega)
  · next hle =>
    rw [Int64.le_iff_toInt_le] at hle
    rw [Int64.toInt_sub, hposition, Int.sub_bmod_bmod]
    exact Int.bmod_eq_of_le (by omega) (by omega)

theorem nth_zero (start stop : Int64) : nth start stop 0 = start := by
  refine Int64.toInt_inj.mp ((toInt_nth (Nat.zero_le _)).trans ?_)
  split <;> simp

/-- Behind the last number of a range comes its stop. -/
theorem nth_size (start stop : Int64) : nth start stop (size start stop) = stop := by
  refine Int64.toInt_inj.mp ((toInt_nth (Nat.le_refl _)).trans ?_)
  simp only [Int64.le_iff_toInt_le, size]
  split <;> omega

theorem nth_ne_stop (hi : i < size start stop) : nth start stop i ≠ stop := by
  intro heq
  have hnth := toInt_nth (Nat.le_of_lt hi)
  rw [heq] at hnth
  simp only [Int64.le_iff_toInt_le] at hnth
  unfold size at hi
  split at hnth <;> omega

/-- What comes next is the number at the next position. -/
theorem next_nth (hi : i < size start stop) :
    next (nth start stop i) stop = nth start stop (i + 1) := by
  refine Int64.toInt_inj.mp ?_
  rw [toInt_next (nth_ne_stop hi), toInt_nth hi]
  simp only [Int64.le_iff_toInt_le, toInt_nth (Nat.le_of_lt hi)]
  unfold size at hi
  split <;> split <;> omega

/-- Whether a range contains a number can be told from its bounds. -/
theorem contains_eq_true_iff (n : Int64) :
    contains start stop n = true ↔
      if start.toInt ≤ stop.toInt then start.toInt ≤ n.toInt ∧ n.toInt < stop.toInt
      else stop.toInt < n.toInt ∧ n.toInt ≤ start.toInt := by
  simp only [contains, Int64.le_iff_toInt_le]
  split
  · simp [Int64.lt_iff_toInt_lt]
  · next hlt =>
    have := start.toInt_lt
    have := stop.le_toInt
    have hnext : (stop + 1).toInt = stop.toInt + 1 := by
      rw [Int64.toInt_add, Int64.toInt_one]
      exact Int.bmod_eq_of_le (by omega) (by omega)
    simp only [hnext, Bool.and_eq_true, decide_eq_true_eq]
    omega

/-- A range contains a number if and only if the number is at one of its positions. -/
theorem contains_iff (n : Int64) :
    contains start stop n = true ↔ ∃ i < size start stop, nth start stop i = n := by
  rw [contains_eq_true_iff]
  constructor
  · intro h
    have hsize : (start.toInt - n.toInt).natAbs < size start stop := by
      unfold size
      split at h <;> omega
    refine ⟨_, hsize, Int64.toInt_inj.mp ((toInt_nth (Nat.le_of_lt hsize)).trans ?_)⟩
    simp only [Int64.le_iff_toInt_le]
    split at h <;> split <;> omega
  · rintro ⟨i, hi, rfl⟩
    have hnth := toInt_nth (Nat.le_of_lt hi)
    simp only [Int64.le_iff_toInt_le] at hnth
    unfold size at hi
    split <;> omega

/-- The sums and differences that are formed on the way over a range, for an index into
it, and for the question whether it contains a number are integers that programs have. -/
structure StaysInRange (start stop : Int64) : Prop where
  next : ∀ i < size start stop,
    if nth start stop i ≤ stop then ¬ Overflows .add (nth start stop i) 1
    else ¬ Overflows .sub (nth start stop i) 1
  nth : ∀ i < size start stop, i < 2 ^ 63 →
    if start ≤ stop then ¬ Overflows .add start (Int64.ofNat i)
    else ¬ Overflows .sub start (Int64.ofNat i)
  contains : ¬ start ≤ stop → ¬ Overflows .add stop 1

theorem staysInRange (start stop : Int64) : StaysInRange start stop := by
  have := start.le_toInt
  have := start.toInt_lt
  have := stop.le_toInt
  have := stop.toInt_lt
  constructor
  case next =>
    intro i hi
    have hne : (Range.nth start stop i).toInt ≠ stop.toInt :=
      fun heq => nth_ne_stop hi (Int64.toInt_inj.mp heq)
    have := (Range.nth start stop i).le_toInt
    have := (Range.nth start stop i).toInt_lt
    simp only [Overflows, Operator.exact, OutOfRange, Int64.le_iff_toInt_le, Int64.toInt_one]
    split <;> omega
  case nth =>
    intro i hi hposition
    have hofNat : (Int64.ofNat i).toInt = i := Int64.toInt_ofNat_of_lt hposition
    simp only [Overflows, Operator.exact, OutOfRange, Int64.le_iff_toInt_le, hofNat]
    unfold size at hi
    split <;> omega
  case contains =>
    intro hle
    rw [Int64.le_iff_toInt_le] at hle
    simp only [Overflows, Operator.exact, OutOfRange, Int64.toInt_one]
    omega

end Script.Range
