import Script.Proofs.Eval.RangeViews

/-!
# Lengths

`len` gives the number of rounds of a loop as an integer.  A range can have more numbers
than the largest integer says, and then its length wraps around.
-/

namespace Script

open Scope (Arena FrameId)

/-- The values that have a length. -/
def Value.HasLength (v : Value) : Prop :=
  v.kind = .str ∨ v.kind = .array ∨ v.kind = .map ∨ v.kind = .range

theorem Heap.exists_snapshot (h : Heap) {v : Value} (hv : v.HasLength) :
    ∃ keyed pairs, h.Snapshot v keyed pairs := by
  cases v with
  | str text => exact ⟨_, _, .str text⟩
  | array cell => exact ⟨_, _, .array cell⟩
  | map cell => exact ⟨_, _, .map cell⟩
  | range start stop => exact ⟨_, _, .range start stop⟩
  | _ => rcases hv with hv | hv | hv | hv <;> cases hv

/-- `len` counts the rounds of a loop, up to the largest integer.  Every string, array, map
and range has its pairs, and `for (index, value in x)` has one round for each of them.
The length of `x` is their number if that is an integer that programs have, and only a
range can have so many that it is none: then the length is negative. -/
theorem len_counts_rounds (settings : Settings) (n : Nat) (m₁ : Machine) {v : Value}
    (hv : v.HasLength) :
    let ev := Evaluator.bounded settings n
    ∃ keyed pairs, m₁.heap.Snapshot v keyed pairs ∧
      (∀ (index value : Name) iterable body loc frame m, m.Reached →
        ev.expr iterable frame (m.enterLoop loc) = .done v m₁ →
        ∃ o, (LoopNames.two index.text value.text).Rounds keyed frame (ev.block body) pairs
            m₁ o ∧
          evaluate settings (n + 1) (.expr (.forLoop (.pairs index value iterable) body loc)
            frame) m = o.onMachine Machine.closeLoop) ∧
      ∀ task m loc, ev.Makes task m (.builtin .len [v]) loc m₁ →
        ∃ length : Int64, evaluate settings (n + 1) task m = .done (.int length) m₁ ∧
          (pairs.length < 2 ^ 63 → 0 ≤ length ∧ length.toInt = pairs.length) ∧
          (v.kind = .range → 2 ^ 63 ≤ pairs.length →
            length < 0 ∧ length.toInt = pairs.length - 2 ^ 64) := by
  intro ev
  obtain ⟨keyed, pairs, hpairs⟩ := m₁.heap.exists_snapshot hv
  refine ⟨keyed, pairs, hpairs, ?_, ?_⟩
  · intro index value iterable body loc frame m hreached hv
    exact Evaluator.forLoop_rounds hreached (.pairs index value iterable) hv hpairs body
  · intro task m loc hmakes
    have hrun : evaluate settings (n + 1) task m =
        .done (.int (Int64.ofNat pairs.length)) m₁ := by
      refine (ev.evalTask_of_makes hmakes).trans ?_
      have hasked : Eval.askHeap loc (fun h => Builtin.replyLen h [v]) m₁ =
          .done (.value (.int (Int64.ofNat pairs.length))) m₁ := by
        rw [Eval.askHeap, hpairs.replyLen]
        rfl
      exact Eval.bind_of_done hasked
    refine ⟨_, hrun, ?_, ?_⟩
    · intro hshort
      have hlength : (Int64.ofNat pairs.length).toInt = pairs.length :=
        Int64.toInt_ofNat_of_lt hshort
      refine ⟨?_, hlength⟩
      rw [Int64.le_iff_toInt_le, hlength]
      exact Int.natCast_nonneg _
    · intro hrange hlong
      obtain ⟨start, stop, hcount⟩ : ∃ start stop, pairs.length = Range.size start stop := by
        cases hpairs with
        | range start stop => exact ⟨start, stop, Range.length_pairs start stop⟩
        | _ => cases hrange
      rw [hcount] at hlong ⊢
      have hlength := Range.toInt_ofNat_size hlong
      have hsize := Range.size_lt start stop
      have hzero : (0 : Int64).toInt = 0 := rfl
      rw [Int64.lt_iff_toInt_lt, hlength, hzero]
      exact ⟨by omega, rfl⟩

/-- The range from the smallest integer to zero has one number more than the largest
integer says, and `len` gives the smallest integer for it. -/
theorem len_negative_smallestToZero :
    ({} : Heap).Snapshot (.range Int64.minValue 0) false (Range.pairs Int64.minValue 0) ∧
    (Range.pairs Int64.minValue 0).length = 2 ^ 63 ∧
    evaluate ⟨1, .empty⟩ 1 (.apply (.builtin .len) [.range Int64.minValue 0] default) {} =
      .done (.int Int64.minValue) {} := by
  refine ⟨.range _ _, ?_, ?_⟩
  · rw [Range.length_pairs]
    decide
  · rfl

/-- `3..1` has two numbers, and its length says so. -/
theorem len_counts_rounds_twoNumbers :
    ∃ pairs, ({} : Heap).Snapshot (.range 3 1) false pairs ∧
      ∃ length : Int64, length.toInt = pairs.length ∧
        evaluate ⟨1, .empty⟩ 1 (.apply (.builtin .len) [.range 3 1] default) {} =
          .done (.int length) {} := by
  obtain ⟨keyed, pairs, hpairs, -, hlen⟩ := len_counts_rounds ⟨1, .empty⟩ 0 {}
    (v := .range 3 1) (Or.inr (Or.inr (Or.inr rfl)))
  obtain ⟨length, hrun, hshort, -⟩ :=
    hlen (.apply (.builtin .len) [.range 3 1] default) {} default ⟨_, rfl, rfl⟩
  cases hpairs with
  | range =>
    exact ⟨_, .range 3 1, length, (hshort (by decide)).2, hrun⟩

end Script
