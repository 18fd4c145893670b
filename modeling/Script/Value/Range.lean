/-!
# Ranges

A range runs from its start up or down to its stop, which it does not include.
-/

namespace Script.Range

/-- How many numbers are in a range. -/
def size (start stop : Int64) : Nat := (start.toInt - stop.toInt).natAbs

/-- The number at a position. -/
def nth (start stop : Int64) (i : Nat) : Int64 :=
  if start ≤ stop then start + Int64.ofNat i else start - Int64.ofNat i

def contains (start stop n : Int64) : Bool :=
  if start ≤ stop then start ≤ n && n < stop else stop + 1 ≤ n && n ≤ start

/-- The number that comes behind another one on the way to the stop. -/
def next (number stop : Int64) : Int64 :=
  if number ≤ stop then number + 1 else number - 1

/-- No number that is not the stop is the last one that there is. -/
theorem toInt_next {number stop : Int64} (hne : number ≠ stop) :
    (next number stop).toInt =
      if number ≤ stop then number.toInt + 1 else number.toInt - 1 := by
  have hdiffer : number.toInt ≠ stop.toInt := fun heq => hne (Int64.toInt_inj.mp heq)
  have hlow := stop.le_toInt
  have hhigh := stop.toInt_lt
  have hone : (1 : Int64).toInt = 1 := by decide
  unfold next
  split
  · next hle =>
    rw [Int64.le_iff_toInt_le] at hle
    have := number.le_toInt
    rw [Int64.toInt_add, hone]
    exact Int.bmod_eq_of_le (by omega) (by omega)
  · next hle =>
    rw [Int64.le_iff_toInt_le] at hle
    have := number.toInt_lt
    rw [Int64.toInt_sub, hone]
    exact Int.bmod_eq_of_le (by omega) (by omega)

/-- Each number on the way is nearer to the stop than the one before. -/
theorem size_next {number stop : Int64} (hne : number ≠ stop) :
    size (next number stop) stop + 1 = size number stop := by
  have hdiffer : number.toInt ≠ stop.toInt := fun heq => hne (Int64.toInt_inj.mp heq)
  unfold size
  rw [toInt_next hne]
  simp only [Int64.le_iff_toInt_le]
  split <;> omega

/-- What holds of the stop holds of every number if it is passed back along the way. -/
@[elab_as_elim]
theorem way_induction (stop : Int64) {motive : Int64 → Prop} (arrived : motive stop)
    (onTheWay : ∀ number, number ≠ stop → motive (next number stop) → motive number)
    (number : Int64) : motive number := by
  by_cases hstop : number = stop
  · exact hstop ▸ arrived
  · exact onTheWay number hstop (way_induction stop arrived onTheWay (next number stop))
termination_by size number stop
decreasing_by
  have hsize := size_next hstop
  omega

end Script.Range
