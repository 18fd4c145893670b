import Script.Proofs.Eval.Calls
import Script.Proofs.Eval.Snapshots

/-!
# Views of ranges

A loop over a range, an index into it, and the question whether it contains a number go
different ways about the same numbers.
-/

namespace Script

open Scope (Arena FrameId)

/-! ### The numbers of a range -/

/-- The numbers of a range with their positions. -/
def Range.pairs (start stop : Int64) : List (Value × Value) :=
  Heap.numbered ((List.range (size start stop)).map fun i => .int (nth start stop i))

namespace Range

variable {start stop : Int64}

theorem length_pairs (start stop : Int64) : (pairs start stop).length = size start stop := by
  simp [pairs, Heap.length_numbered]

theorem getElem?_pairs {i : Nat} (hi : i < size start stop) :
    (pairs start stop)[i]? = some (.int (Int64.ofNat i), .int (nth start stop i)) := by
  simp [pairs, Heap.getElem?_numbered, hi]

/-- A range contains the numbers that its pairs have. -/
theorem contains_iff_pairs (n : Int64) :
    contains start stop n = true ↔ ∃ pair ∈ pairs start stop, pair.2 = .int n := by
  rw [contains_iff]
  constructor
  · rintro ⟨i, hi, rfl⟩
    exact ⟨_, List.mem_of_getElem? (getElem?_pairs hi), rfl⟩
  · rintro ⟨pair, hpair, hn⟩
    obtain ⟨i, hi⟩ := List.mem_iff_getElem?.mp hpair
    obtain ⟨hlength, -⟩ := List.getElem?_eq_some_iff.mp hi
    rw [length_pairs] at hlength
    rw [getElem?_pairs hlength] at hi
    cases hi
    exact ⟨i, hlength, Value.int.inj hn⟩

end Range

/-! ### What programs see -/

section

variable {start stop : Int64} {m m₁ m₂ : Machine}

/-- An index looks up the pairs of the range. -/
theorem Heap.element_range (h : Heap) (start stop i : Int64) :
    h.element (.range start stop) (.int i) =
      if i < 0 then .error (.negativeIndex i)
      else match (Range.pairs start stop)[i.toInt.toNat]? with
        | some pair => .ok pair.2
        | none => .error (.indexOutOfBounds i (Range.pairs start stop).length) := by
  change (position i (Range.size start stop)).map _ = _
  unfold position
  split
  · rfl
  · rw [Range.length_pairs]
    dsimp only
    split
    · next hlarge =>
      rw [List.getElem?_eq_none (by rwa [Range.length_pairs])]
      rfl
    · next hsmall =>
      rw [Range.getElem?_pairs (Nat.lt_of_not_le hsmall)]
      rfl

theorem Evaluator.index_of_parts (ev : Evaluator) {left right : Expr} {frame : FrameId}
    {container index : Value} (hleft : ev.expr left frame m = .done container m₁)
    (hright : ev.expr right frame m₁ = .done index m₂) (loc : Location) :
    ev.index left right loc frame m = Eval.askHeap loc (·.element container index) m₂ := by
  rw [Evaluator.index, Eval.bind_of_done hleft, Eval.bind_of_done hright]

end

/-- A loop over a range, an index into it, and the question whether it contains a number
agree, whatever integers the bounds are.  The numbers go from the start up or down to the
stop, which is left out, in steps of one, and their positions count from zero on as far as
there are integers for them.  A loop has one round for each pair of a position and a
number, an index gives the number at its position, and what the range contains are these
numbers.  On none of these ways is there a sum or difference that has to wrap around. -/
theorem range_views_agree (settings : Settings) (n : Nat) (start stop : Int64) :
    let ev := Evaluator.bounded settings n
    let pairs := Range.pairs start stop
    pairs.length = (start.toInt - stop.toInt).natAbs ∧
    (∀ (i : Nat) (pair : Value × Value), pairs[i]? = some pair → ∃ position number : Int64,
      pair = (.int position, .int number) ∧ (i < 2 ^ 63 → position.toInt = i) ∧
      number.toInt = if start ≤ stop then start.toInt + i else start.toInt - i) ∧
    (∀ (header : LoopHeader) names iterable body loc frame m m₁, m.Reached →
      header.Walks names iterable →
      ev.expr iterable frame (m.enterLoop loc) = .done (.range start stop) m₁ →
      ∃ o, names.Rounds false frame (ev.block body) pairs m₁ o ∧
        evaluate settings (n + 1) (.expr (.forLoop header body loc) frame) m =
          o.onMachine Machine.closeLoop) ∧
    (∀ left right loc frame m m₁ m₂ (i : Int64),
      ev.expr left frame m = .done (.range start stop) m₁ →
      ev.expr right frame m₁ = .done (.int i) m₂ →
      evaluate settings (n + 1) (.expr (.index left right loc) frame) m =
        if i < 0 then .left (.failed (.negativeIndex i) loc) m₂
        else match pairs[i.toInt.toNat]? with
          | some pair => .done pair.2 m₂
          | none => .left (.failed (.indexOutOfBounds i pairs.length) loc) m₂) ∧
    (∀ task m loc m₁ v,
      ev.Makes task m (.builtin .contains [.range start stop, v]) loc m₁ →
      ((∃ x, v = .int x) → ∃ found,
        evaluate settings (n + 1) task m = .done (.bool found) m₁ ∧
        (found = true ↔ ∃ pair ∈ pairs, pair.2 = v)) ∧
      ((¬ ∃ x, v = .int x) → ∃ problem,
        evaluate settings (n + 1) task m = .left (.failed problem loc) m₁)) ∧
    Range.StaysInRange start stop := by
  intro ev pairs
  refine ⟨Range.length_pairs start stop, ?_, ?_, ?_, ?_, Range.staysInRange start stop⟩
  · intro i pair hpair
    obtain ⟨hi, -⟩ := List.getElem?_eq_some_iff.mp hpair
    rw [Range.length_pairs] at hi
    rw [Range.getElem?_pairs hi] at hpair
    cases hpair
    exact ⟨_, _, rfl, Int64.toInt_ofNat_of_lt, Range.toInt_nth (Nat.le_of_lt hi)⟩
  · intro header names iterable body loc frame m m₁ hreached hheader hc
    exact Evaluator.forLoop_rounds hreached hheader hc (.range start stop) body
  · intro left right loc frame m m₁ m₂ i hleft hright
    change ev.index left right loc frame m = _
    rw [ev.index_of_parts hleft hright, Eval.askHeap, Heap.element_range]
    by_cases hnegative : i < 0
    · rw [if_pos hnegative, if_pos hnegative]
    · rw [if_neg hnegative, if_neg hnegative]
      cases pairs[i.toInt.toNat]? with
      | some pair => rfl
      | none => rfl
  · intro task m loc m₁ v hmakes
    have hrun : evaluate settings (n + 1) task m =
        ev.perform loc (.builtin .contains [.range start stop, v]) m₁ :=
      ev.evalTask_of_makes hmakes
    rw [hrun]
    constructor
    · rintro ⟨x, rfl⟩
      exact ⟨_, rfl, Range.contains_iff_pairs x⟩
    · intro hother
      cases v with
      | int x => exact (hother ⟨x, rfl⟩).elim
      | _ => exact ⟨_, rfl⟩

/-- `3..1` has the numbers 3 and 2: a loop has a round for each of them, 2 is what is at
position 1, and 1 is left out. -/
theorem range_views_agree_descending :
    let expr : Expr := .range (.int 3 default) (.int 1 default) default
    (∃ o, (LoopNames.one "x").Rounds false Arena.root
        ((Evaluator.bounded ⟨1, .empty⟩ 2).block ⟨[], default⟩)
        [(.int 0, .int 3), (.int 1, .int 2)] ((Machine.start "").enterLoop default) o ∧
      evaluate ⟨1, .empty⟩ 3 (.expr (.forLoop (.items ⟨"x", default⟩ expr) ⟨[], default⟩
        default) Arena.root) (Machine.start "") = o.onMachine Machine.closeLoop) ∧
    evaluate ⟨1, .empty⟩ 3 (.expr (.index expr (.int 1 default) default) Arena.root) {} =
      .done (.int 2) {} ∧
    evaluate ⟨1, .empty⟩ 3 (.apply (.builtin .contains) [.range 3 1, .int 1] default) {} =
      .done (.bool false) {} := by
  intro expr
  obtain ⟨-, -, hloops, hindex, hcontains, -⟩ := range_views_agree ⟨1, .empty⟩ 2 3 1
  have hpairs : Range.pairs 3 1 = [(.int 0, .int 3), (.int 1, .int 2)] := by rfl
  rw [hpairs] at hloops hindex hcontains
  refine ⟨?_, ?_, ?_⟩
  · exact hloops (.items ⟨"x", default⟩ expr) (.one "x") expr ⟨[], default⟩ default Arena.root
      (Machine.start "") ((Machine.start "").enterLoop default) (.start "" _)
      (.items ⟨"x", default⟩ expr) rfl
  · exact hindex expr (.int 1 default) default Arena.root {} {} {} 1 rfl rfl
  · obtain ⟨hint, -⟩ := hcontains (.apply (.builtin .contains) [.range 3 1, .int 1] default)
      {} default {} (.int 1) ⟨_, rfl, rfl⟩
    obtain ⟨found, hfound, hiff⟩ := hint ⟨1, rfl⟩
    have hnot : found = false := by
      refine Bool.eq_false_iff.mpr fun hfound => ?_
      obtain ⟨pair, hpair, hone⟩ := hiff.mp hfound
      simp only [List.mem_cons, List.not_mem_nil, or_false] at hpair
      rcases hpair with rfl | rfl <;> cases hone
    rw [hnot] at hfound
    exact hfound

end Script
