import Script.Proofs.Eval.Calls
import Script.Proofs.Eval.References

/-!
# Computations in turn

A computation may be carried out for each item of a list, one after another, on the
machine that the one before has left.  It goes on as long as each gives a value.  The
first that gives none ends the whole, and the items behind it are not come to.
-/

namespace Script

/-- A computation has left early or run out of its bound, and another one has ended in
the same way. -/
inductive Outcome.EndsAs {α β : Type} : Outcome α → Outcome β → Prop where
  | left (exit : Exit) (m : Machine) : EndsAs (.left exit m) (.left exit m)
  | exhausted : EndsAs .exhausted .exhausted

/-- A value has been given. -/
def Outcome.isDone {α : Type} : Outcome α → Bool
  | .done .. => true
  | .left .. | .exhausted => false

theorem Outcome.EndsAs.not_isDone {α β : Type} {o : Outcome α} {o' : Outcome β}
    (hends : o.EndsAs o') : o'.isDone = false := by
  cases hends <;> rfl

/-- What follows an early end is not come to. -/
theorem Outcome.EndsAs.bind {α β γ : Type} {o : Outcome α} {c : Eval β} {m : Machine}
    (hends : o.EndsAs (c m)) (f : β → Eval γ) : o.EndsAs ((c >>= f) m) := by
  cases hc : c m with
  | done value m' =>
    rw [hc] at hends
    cases hends
  | left exit m' =>
    rw [hc] at hends
    rw [Eval.bind_of_left hc]
    cases hends
    exact .left exit m'
  | exhausted =>
    rw [hc] at hends
    rw [Eval.bind_of_exhausted hc]
    cases hends
    exact .exhausted

namespace Eval

variable {α β γ : Type} {c : β → Eval γ} {m m' m'' : Machine}

/-- A computation gives a value, or what follows it ends as it does. -/
theorem done_or_endsAs (c : Eval α) (m : Machine) :
    (∃ value m', c m = .done value m') ∨
      ∀ (β : Type) (f : α → Eval β), (c m).EndsAs ((c >>= f) m) := by
  cases hc : c m with
  | done value m' => exact Or.inl ⟨value, m', rfl⟩
  | left exit m' => exact Or.inr fun β f => bind_of_left (f := f) hc ▸ .left exit m'
  | exhausted => exact Or.inr fun β f => bind_of_exhausted (f := f) hc ▸ .exhausted

/-! ### One for each item -/

/-- The computations for the items give the values, one after another. -/
inductive InTurn (c : β → Eval γ) : List β → Machine → List γ → Machine → Prop where
  | nil (m : Machine) : InTurn c [] m [] m
  | cons {x : β} {xs : List β} {y : γ} {ys : List γ} {m m' m'' : Machine}
      (hfirst : c x m = .done y m') (hrest : InTurn c xs m' ys m'') :
      InTurn c (x :: xs) m (y :: ys) m''

theorem InTurn.length_eq {xs : List β} {ys : List γ} (h : InTurn c xs m ys m') :
    ys.length = xs.length := by
  induction h with
  | nil => rfl
  | cons _ _ ih => rw [List.length_cons, List.length_cons, ih]

/-- What each computation keeps, all of them keep. -/
theorem InTurn.keeps {P : Machine → Prop} {xs : List β} {ys : List γ}
    (hstep : ∀ x ∈ xs, ∀ m y m', P m → c x m = .done y m' → P m')
    (h : InTurn c xs m ys m') (hm : P m) : P m' := by
  induction h with
  | nil => exact hm
  | cons hfirst _ ih =>
    exact ih (fun x hx => hstep x (List.mem_cons_of_mem _ hx))
      (hstep _ List.mem_cons_self _ _ _ hm hfirst)

/-- Sound computations leave a whole machine behind. -/
theorem InTurn.keepsHeap [Mentioning γ] {h : Heap} {xs : List β} {ys : List γ}
    (hsound : ∀ x ∈ xs, Sound h (c x)) (hturn : InTurn c xs m ys m') (hm : m.Keeps h) :
    m'.Keeps h := by
  refine hturn.keeps (P := fun m => m.Keeps h) (fun x hx m y m' hkept hdone => ?_) hm
  have hlast := hsound x hx m hkept
  rw [hdone] at hlast
  exact hkept.trans hlast.1

/-- There is a first computation that gives no value, and the whole ends as it does. -/
def StopsIn {δ : Type} (c : β → Eval γ) (items : List β) (m : Machine) (o : Outcome δ) :
    Prop :=
  ∃ before item after values m', items = before ++ item :: after ∧
    InTurn c before m values m' ∧ (c item m').EndsAs o

/-- What sound computations have given is known in the end. -/
theorem InTurn.knows [Mentioning γ] {xs : List β} {ys : List γ}
    (hsound : ∀ h, ∀ x ∈ xs, Sound h (c x)) (hturn : InTurn c xs m ys m')
    (hm : m.Whole) : m'.heap.Knows ys := by
  induction hturn with
  | nil => exact Heap.knows_nil
  | @cons x xs y ys m first last hfirst hrest ih =>
    have hlater := fun h x hx => hsound h x (List.mem_cons_of_mem _ hx)
    have hgiven := hsound m.heap x List.mem_cons_self m hm.keeps
    rw [hfirst] at hgiven
    have hlast := hrest.keepsHeap (hlater first.heap) hgiven.1.whole.keeps
    exact Heap.knows_cons.mpr ⟨hgiven.2.mono hlast.within, ih hlater hgiven.1.whole⟩

theorem InTurn.append {xs xs' : List β} {ys ys' : List γ} (hfirst : InTurn c xs m ys m')
    (hsecond : InTurn c xs' m' ys' m'') : InTurn c (xs ++ xs') m (ys ++ ys') m'' := by
  induction hfirst with
  | nil => exact hsecond
  | cons hstep _ ih => exact .cons hstep (ih hsecond)

/-- Carries out the computations for the items and collects their values. -/
def collect (c : β → Eval γ) : List β → Eval (List γ)
  | [] => return []
  | x :: xs => do
    let y ← c x
    let ys ← collect c xs
    return y :: ys

/-- More items behind the one that gives no value are not come to. -/
theorem StopsIn.append {δ : Type} {xs : List β} {o : Outcome δ} (hstops : StopsIn c xs m o)
    (more : List β) : StopsIn c (xs ++ more) m o := by
  obtain ⟨before, item, after, values, m', rfl, hbefore, hends⟩ := hstops
  exact ⟨before, item, after ++ more, values, m', by simp, hbefore, hends⟩

theorem InTurn.stopsIn {δ : Type} {xs : List β} {ys : List γ} {o : Outcome δ}
    (hturn : InTurn c xs m ys m') {x : β} (hends : (c x m').EndsAs o) :
    StopsIn c (xs ++ [x]) m o :=
  ⟨xs, x, [], ys, m', rfl, hturn, hends⟩

/-- All computations give values, or there is a first one that does not. -/
theorem collect_cases (c : β → Eval γ) (xs : List β) (m : Machine) :
    (∃ ys m', InTurn c xs m ys m' ∧ collect c xs m = .done ys m') ∨
    StopsIn c xs m (collect c xs m) := by
  induction xs generalizing m with
  | nil => exact Or.inl ⟨[], m, .nil m, rfl⟩
  | cons x xs ih =>
    rcases done_or_endsAs (c x) m with ⟨y, m', hfirst⟩ | hends
    · have hrest : collect c (x :: xs) m =
          (collect c xs >>= fun ys => Pure.pure (y :: ys)) m' := bind_of_done hfirst
      rw [hrest]
      rcases ih m' with ⟨ys, last, hall, hdone⟩ |
        ⟨before, stop, after, ys, last, hsplit, hbefore, hstop⟩
      · exact Or.inl ⟨y :: ys, last, .cons hfirst hall, bind_of_done hdone⟩
      · exact Or.inr ⟨x :: before, stop, after, y :: ys, last, by rw [hsplit]; rfl,
          .cons hfirst hbefore, hstop.bind _⟩
    · exact Or.inr ⟨[], x, xs, [], m, rfl, .nil m, hends _ _⟩

/-- Values that have been collected were given in turn. -/
theorem inTurn_of_collect {xs : List β} {ys : List γ}
    (h : collect c xs m = .done ys m') : InTurn c xs m ys m' := by
  induction xs generalizing m ys with
  | nil =>
    cases h
    exact .nil _
  | cons x xs ih =>
    obtain ⟨y, between, hfirst, hrest⟩ := done_of_bind h
    obtain ⟨ys', last, hall, hgiven⟩ := done_of_bind hrest
    cases hgiven
    exact .cons hfirst (ih hall)

/-- There is one way only that computations give values in turn. -/
theorem InTurn.unique {xs : List β} {ys zs : List γ} (h : InTurn c xs m ys m')
    (h' : InTurn c xs m zs m'') : ys = zs ∧ m' = m'' := by
  induction h generalizing zs m'' with
  | nil =>
    cases h'
    exact ⟨rfl, rfl⟩
  | cons hfirst _ ih =>
    cases h' with
    | cons hfirst' hrest' =>
      obtain ⟨rfl, rfl⟩ := Outcome.done.inj (hfirst.symm.trans hfirst')
      obtain ⟨rfl, rfl⟩ := ih hrest'
      exact ⟨rfl, rfl⟩

/-- What comes after computations for items is come to if they all give values. -/
theorem collect_bind_cases {δ : Type} (c : β → Eval γ) (items : List β)
    (rest : List γ → Eval δ) (m : Machine) :
    (∃ values m', InTurn c items m values m' ∧
      (collect c items >>= rest) m = rest values m') ∨
    StopsIn c items m ((collect c items >>= rest) m) := by
  rcases collect_cases c items m with ⟨values, m', hall, hdone⟩ |
    ⟨before, item, after, values, m', hsplit, hbefore, hends⟩
  · exact Or.inl ⟨values, m', hall, bind_of_done hdone⟩
  · exact Or.inr ⟨before, item, after, values, m', hsplit, hbefore, hends.bind rest⟩

/-! ### One into the next -/

/-- The computations for the items lead from `start` to `last`; each gets what the one
before has given. -/
inductive Folds (c : γ → β → Eval γ) : List β → γ → Machine → γ → Machine → Prop where
  | nil (last : γ) (m : Machine) : Folds c [] last m last m
  | cons {x : β} {xs : List β} {start next last : γ} {m m' m'' : Machine}
      (hfirst : c start x m = .done next m') (hrest : Folds c xs next m' last m'') :
      Folds c (x :: xs) start m last m''

/-- The computations for the items lead to the value of the outcome, or there is a first
one that gives no value, and the whole ends as it does. -/
def FoldsTo (c : γ → β → Eval γ) (items : List β) (start : γ) (m : Machine)
    (o : Outcome γ) : Prop :=
  (∃ last m', Folds c items start m last m' ∧ o = .done last m') ∨
  ∃ before item after value m', items = before ++ item :: after ∧
    Folds c before start m value m' ∧ (c value item m').EndsAs o

end Eval

end Script
