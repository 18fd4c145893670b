import Script.Proofs.Eval.Nesting

/-!
# Sequences of computations

What a sequence does follows from how its first step ends: with a value, on the way out
or out of its bound.  Two sequences that differ in one step are the same where that step
does the same.
-/

namespace Script

open Scope (FrameId)

namespace Eval

/-! ### A step and what follows it -/

theorem pure_bind {α β : Type} (value : α) (f : α → Eval β) :
    (Pure.pure value >>= f) = f value := rfl

theorem bind_pure {α : Type} (c : Eval α) (m : Machine) : (c >>= Pure.pure) m = c m := by
  change Eval.bind c Pure.pure m = c m
  unfold Eval.bind
  cases c m <;> rfl

theorem bind_assoc {α β γ : Type} (c : Eval α) (f : α → Eval β) (g : β → Eval γ) :
    c >>= f >>= g = c >>= fun x => f x >>= g := by
  funext m
  change Eval.bind (Eval.bind c f) g m = Eval.bind c (fun x => Eval.bind (f x) g) m
  unfold Eval.bind
  cases c m <;> rfl

theorem bind_of_done {α β : Type} {c : Eval α} {f : α → Eval β} {m m' : Machine}
    {x : α} (h : c m = .done x m') : (c >>= f) m = f x m' := by
  change Eval.bind c f m = _
  rw [Eval.bind, h]

theorem bind_of_left {α β : Type} {c : Eval α} {f : α → Eval β} {m m' : Machine}
    {exit : Exit} (h : c m = .left exit m') : (c >>= f) m = .left exit m' := by
  change Eval.bind c f m = _
  rw [Eval.bind, h]

theorem bind_of_exhausted {α β : Type} {c : Eval α} {f : α → Eval β} {m : Machine}
    (h : c m = .exhausted) : (c >>= f) m = .exhausted := by
  change Eval.bind c f m = _
  rw [Eval.bind, h]

/-- A sequence that ends with a value has got past its first step. -/
theorem done_of_bind {α β : Type} {c : Eval α} {f : α → Eval β} {m m' : Machine}
    {y : β} (h : (c >>= f) m = .done y m') :
    ∃ x between, c m = .done x between ∧ f x between = .done y m' := by
  cases hc : c m with
  | done x between =>
    rw [bind_of_done hc] at h
    exact ⟨x, between, rfl, h⟩
  | left exit between =>
    rw [bind_of_left hc] at h
    cases h
  | exhausted =>
    rw [bind_of_exhausted hc] at h
    cases h

theorem bind_congr_left {α β : Type} {c d : Eval α} {f : α → Eval β} {m : Machine}
    (h : c m = d m) : (c >>= f) m = (d >>= f) m := by
  change Eval.bind c f m = Eval.bind d f m
  rw [Eval.bind, Eval.bind, h]

/-- What follows matters only where it comes to that. -/
theorem bind_congr_done {α β : Type} {c : Eval α} {f g : α → Eval β} {m : Machine}
    (hsame : ∀ v m', c m = .done v m' → f v m' = g v m') :
    (c >>= f) m = (c >>= g) m := by
  change Eval.bind c f m = Eval.bind c g m
  unfold Eval.bind
  cases hdone : c m with
  | done v m' => exact hsame v m' hdone
  | left exit m' => rfl
  | exhausted => rfl

/-- What would follow does not matter if it does not come to that. -/
theorem bind_congr_of_not_done {α β : Type} {c : Eval α} {f g : α → Eval β}
    {m : Machine} (h : ∀ x m', c m ≠ .done x m') : (c >>= f) m = (c >>= g) m :=
  bind_congr_done fun x m' hdone => (h x m' hdone).elim

/-! ### Scopes and calls -/

theorem complete_congr {c d : Eval Value} {m : Machine} (h : c m = d m) :
    complete c m = complete d m := by
  rw [complete, complete, h]

theorem inChild_eq {α : Type} (outer : FrameId) (c : FrameId → Eval α)
    (m : Machine) :
    inChild outer c m =
      ending (c (m.scopes.child outer).1)
        (·.closeFrame (m.scopes.child outer).1) (m.openFrame outer) := rfl

theorem inChild_of_left {α : Type} {outer : FrameId} {c : FrameId → Eval α}
    {m m' : Machine} {exit : Exit}
    (h : c (m.scopes.child outer).1 (m.openFrame outer) = .left exit m') :
    inChild outer c m = .left exit (m'.closeFrame (m.scopes.child outer).1) := by
  rw [inChild_eq, ending, h]

theorem inChild_congr {α : Type} {outer : FrameId} {c d : FrameId → Eval α}
    {m : Machine} (h : c (m.scopes.child outer).1 (m.openFrame outer) =
      d (m.scopes.child outer).1 (m.openFrame outer)) :
    inChild outer c m = inChild outer d m := by
  rw [inChild_eq, inChild_eq, ending, ending, h]

/-- The body of a call runs on one machine, if it runs. -/
theorem inCall_congr {α : Type} {limit : Nat} {name : String} {loc : Location}
    {c d : Eval α} {m : Machine} (h : m.callDepth < limit → c m.openCall = d m.openCall) :
    inCall limit name loc c m = inCall limit name loc d m := by
  unfold inCall
  split
  · rfl
  · next hlimit =>
    have hsame := h (Nat.lt_of_not_le hlimit)
    unfold Machine.openCall at hsame
    simp only [ending, hsame]

/-! ### Looks at the machine -/

theorem askHeap_cases {α : Type} (loc : Location) (f : Heap → Except Problem α)
    (m : Machine) :
    (∃ value, f m.heap = .ok value ∧ askHeap loc f m = .done value m) ∨
    ∃ problem, askHeap loc f m = .left (.failed problem loc) m := by
  unfold askHeap
  split
  · next value hvalue => exact Or.inl ⟨value, hvalue, rfl⟩
  · next problem hproblem => exact Or.inr ⟨problem, rfl⟩

theorem askHeap_done {α : Type} {loc : Location} {ask : Heap → Except Problem α}
    {m m' : Machine} {x : α} (h : askHeap loc ask m = .done x m') :
    m' = m ∧ ask m.heap = .ok x := by
  unfold askHeap at h
  split at h
  · next heq =>
    cases h
    exact ⟨rfl, heq⟩
  · cases h

theorem requireKnown_cases (type : TypeExpr) (frame : FrameId) (m : Machine) :
    requireKnown type frame m = .done () m ∨
      ∃ problem loc, requireKnown type frame m = .left (.failed problem loc) m := by
  unfold requireKnown
  split
  · exact Or.inr ⟨_, _, rfl⟩
  · exact Or.inl rfl

end Eval

end Script
