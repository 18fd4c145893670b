import Mathlib.Data.List.Forall2
import Script.Proofs.Eval.Calls

/-!
# Signatures

The body of a function starts only if there are as many arguments as parameters, and each
of them has the type that its parameter asks for.  What the function gives in the end has
the types that it says it gives.
-/

namespace Script

open Scope (FrameId)

/-! ### What a function asks for and says it gives -/

namespace Closure

/-- The arguments are what the parameters of the function ask for. -/
structure Accepts (f : Closure) (h : Heap) (args : List Value) : Prop where
  count : args.length = f.code.params.count
  types : ∀ params, f.code.params = .typed params →
    List.Forall₂ (fun param v => h.hasType param.type v = true) params args

/-- The value is what the function says it gives.  One that has several return types gives
an array with an item for each of them. -/
def Honours (f : Closure) (h : Heap) (v : Value) : Prop :=
  match f.code.returns with
  | [] => True
  | [type] => if Eval.isVoid type then v = .null else h.hasType type v = true
  | types => ∃ cell, v = .array cell ∧
    List.Forall₂ (fun type item => h.hasType type item = true) types (h.items cell).toList

/-- A call of the function on the machine `m` gets to the body, which starts on the machine
`start`: the arguments have been bound, and the call is counted. -/
structure Enters (f : Closure) (limit : Nat) (args : List Value) (receiver : Option Value)
    (loc : Location) (m start : Machine) : Prop where
  count : args.length = f.code.params.count
  bound : ∃ bound, Eval.bindCall f args receiver loc (m.scopes.child f.frame).1
    (m.openFrame f.frame) = .done () bound ∧ bound.callDepth < limit ∧ start = bound.openCall

end Closure

namespace Eval

/-! ### Arguments -/

section

variable {frame : FrameId} {loc : Location}

/-- Names are bound without a look at the heap. -/
theorem bindNames_done (frame : FrameId) (names : List Name) (args : List Value)
    (m : Machine) :
    ∃ m', bindNames frame names args m = .done () m' ∧ m'.heap = m.heap := by
  induction names generalizing args m with
  | nil => exact ⟨m, rfl, rfl⟩
  | cons name names ih =>
    cases args with
    | nil => exact ⟨m, rfl, rfl⟩
    | cons v args =>
      obtain ⟨m', hrest, hheap⟩ :=
        ih args { m with scopes := m.scopes.set frame name.text v }
      exact ⟨m', hrest, hheap⟩

theorem checkArgument_cases (function : String) (param : TypedName) (v : Value)
    (frame : FrameId) (loc : Location) (m : Machine) :
    checkArgument function param v frame loc m = .done () m ∧
        m.heap.hasType param.type v = true ∨
      ∃ problem loc', checkArgument function param v frame loc m =
        .left (.failed problem loc') m := by
  unfold checkArgument
  rcases requireKnown_cases param.type frame m with hknown | ⟨problem, loc', hfailed⟩
  · rw [bind_of_done hknown]
    cases htype : m.heap.hasType param.type v with
    | true =>
      refine Or.inl ⟨?_, rfl⟩
      simp [askHeap, htype]
    | false =>
      refine Or.inr ⟨.parameterType function param.name.text param.type.print
        (m.heap.typeName v), loc, ?_⟩
      simp [askHeap, htype]
  · exact Or.inr ⟨problem, loc', bind_of_left hfailed⟩

/-- Arguments are bound one by one, each after a look at its type. -/
theorem bindTyped_cases (function : String) (frame : FrameId) (loc : Location)
    {params : List TypedName} {args : List Value} (hcount : args.length = params.length)
    (m : Machine) :
    (∃ m', bindTyped function frame loc params args m = .done () m' ∧ m'.heap = m.heap ∧
      List.Forall₂ (fun param v => m.heap.hasType param.type v = true) params args) ∨
    ∃ problem loc' m', bindTyped function frame loc params args m =
      .left (.failed problem loc') m' := by
  induction params generalizing args m with
  | nil =>
    obtain rfl := List.length_eq_zero_iff.mp hcount
    exact Or.inl ⟨m, rfl, rfl, .nil⟩
  | cons param params ih =>
    cases args with
    | nil => cases hcount
    | cons v args =>
      rw [bindTyped]
      rcases checkArgument_cases function param v frame loc m with
        ⟨hchecked, htype⟩ | ⟨problem, loc', hfailed⟩
      · rw [bind_of_done hchecked]
        rcases ih (Nat.succ.inj hcount)
            { m with scopes := m.scopes.set frame param.name.text v } with
          ⟨m', hrest, hheap, htypes⟩ | ⟨problem, loc', m', hrest⟩
        · exact Or.inl ⟨m', hrest, hheap, .cons htype htypes⟩
        · exact Or.inr ⟨problem, loc', m', hrest⟩
      · exact Or.inr ⟨problem, loc', m, bind_of_left hfailed⟩

/-- The arguments of a call are bound if they are what the function asks for, and nothing
but their names is new then.  Otherwise the call fails. -/
theorem bindCall_cases {f : Closure} {args : List Value}
    (hcount : args.length = f.code.params.count) (receiver : Option Value) (loc : Location)
    (frame : FrameId) (m : Machine) :
    (∃ m', bindCall f args receiver loc frame m = .done () m' ∧ m'.heap = m.heap ∧
      f.Accepts m.heap args) ∨
    ∃ problem loc' m', bindCall f args receiver loc frame m =
      .left (.failed problem loc') m' := by
  have hparams : ∀ m : Machine,
      (∃ m', bindParams f.name f.code.params args frame loc m = .done () m' ∧
        m'.heap = m.heap ∧ f.Accepts m.heap args) ∨
      ∃ problem loc' m', bindParams f.name f.code.params args frame loc m =
        .left (.failed problem loc') m' := by
    intro m
    cases hkind : f.code.params with
    | plain names =>
      obtain ⟨m', hdone, hheap⟩ := bindNames_done frame names args m
      exact Or.inl ⟨m', hdone, hheap, hcount, fun _ h => nomatch hkind.symm.trans h⟩
    | typed params =>
      rw [hkind] at hcount
      rcases bindTyped_cases f.name frame loc hcount m with
        ⟨m', hdone, hheap, htypes⟩ | hfailed
      · refine Or.inl ⟨m', hdone, hheap, ?_, fun _ h => ?_⟩
        · rw [hkind]
          exact hcount
        · cases hkind.symm.trans h
          exact htypes
      · exact Or.inr hfailed
  cases receiver with
  | none => exact hparams m
  | some v => exact hparams { m with scopes := m.scopes.set frame "self" v }

end

/-! ### Results -/

theorem haveTypes_iff (h : Heap) (types : List TypeExpr) (values : List Value) :
    haveTypes h types values = true ↔
      List.Forall₂ (fun type v => h.hasType type v = true) types values := by
  rw [List.forall₂_iff_zip, haveTypes, Bool.and_eq_true, beq_iff_eq, List.all_eq_true,
    eq_comm]
  simp

theorem checkSingle_ok {h : Heap} {function : String} {type : TypeExpr} {c : Completion}
    {v : Value} (hok : checkSingle h function type c = .ok v) :
    if isVoid type then v = .null else h.hasType type v = true := by
  unfold checkSingle at hok
  split at hok
  · next hvoid =>
    rw [if_pos hvoid]
    split at hok
    · cases hok
    · cases hok
      rfl
  · next hvoid =>
    rw [if_neg hvoid]
    split at hok
    · next htype =>
      cases hok
      exact htype
    · split at hok <;> cases hok

/-- A value has several types if it is an array with an item for each of them. -/
theorem checkSeveral_cases (h : Heap) (function : String) (types : List TypeExpr)
    (v : Value) :
    (∃ cell, v = .array cell ∧
      List.Forall₂ (fun type item => h.hasType type item = true) types (h.items cell).toList ∧
      checkSeveral h function types v = .ok v) ∨
    (¬ ∃ cell, v = .array cell ∧
      List.Forall₂ (fun type item => h.hasType type item = true) types (h.items cell).toList) ∧
      ∃ got, checkSeveral h function types v =
        .error (.returnType function (typesText (types.map TypeExpr.print)) got) := by
  cases v with
  | array cell =>
    cases htypes : haveTypes h types (h.items cell).toList with
    | true =>
      refine Or.inl ⟨cell, rfl, (haveTypes_iff _ _ _).mp htypes, ?_⟩
      simp only [checkSeveral, htypes, if_true]
    | false =>
      refine Or.inr ⟨?_, typesText ((h.items cell).toList.map h.typeName), ?_⟩
      · rintro ⟨_, ⟨⟩, hall⟩
        cases htypes.symm.trans ((haveTypes_iff _ _ _).mpr hall)
      · simp only [checkSeveral, htypes, Bool.false_eq_true, if_false]
  | _ =>
    refine Or.inr ⟨?_, _, rfl⟩
    rintro ⟨cell, hv, -⟩
    cases hv

theorem checkSeveral_ok {h : Heap} {function : String} {types : List TypeExpr} {v w : Value}
    (hok : checkSeveral h function types v = .ok w) :
    ∃ cell, w = .array cell ∧
      List.Forall₂ (fun type item => h.hasType type item = true) types (h.items cell).toList := by
  rcases checkSeveral_cases h function types v with
    ⟨cell, rfl, hall, hchecked⟩ | ⟨-, got, hchecked⟩
  · cases hok.symm.trans hchecked
    exact ⟨cell, rfl, hall⟩
  · cases hok.symm.trans hchecked

/-- What is given back has been found to be what the function says it gives. -/
theorem checkReturn_honours {f : Closure} {c : Completion} {loc : Location}
    {m m' : Machine} {v : Value} (h : checkReturn f c loc m = .done v m') :
    f.Honours m'.heap v := by
  unfold checkReturn at h
  unfold Closure.Honours
  rcases hreturns : f.code.returns with _ | ⟨type, _ | ⟨second, types⟩⟩
  · trivial
  · rw [hreturns] at h
    obtain ⟨-, between, hknown, hasked⟩ := done_of_bind h
    obtain ⟨rfl, hchecked⟩ := askHeap_done hasked
    exact checkSingle_ok hchecked
  · rw [hreturns] at h
    obtain ⟨rfl, hchecked⟩ := askHeap_done h
    exact checkSeveral_ok hchecked

end Eval

/-! ### Calls -/

namespace Closure

variable {f : Closure} {limit : Nat} {args : List Value} {receiver : Option Value}
  {loc : Location} {m start : Machine}

/-- A body starts with the heap that the arguments were accepted on. -/
theorem Enters.accepts (h : f.Enters limit args receiver loc m start) :
    start.heap = m.heap ∧ f.Accepts m.heap args := by
  obtain ⟨bound, hbound, -, rfl⟩ := h.bound
  rcases Eval.bindCall_cases h.count receiver loc (m.scopes.child f.frame).1
    (m.openFrame f.frame) with ⟨m', hdone, hheap, haccepts⟩ | ⟨problem, loc', m', hfailed⟩
  · obtain rfl : m' = bound := (Outcome.done.inj (hdone.symm.trans hbound)).2
    exact ⟨hheap, haccepts⟩
  · cases hfailed.symm.trans hbound

end Closure

namespace Evaluator

variable {f : Closure} {args : List Value} {receiver : Option Value} {loc : Location}
  {m : Machine}

/-- A call depends on how code is evaluated only where it gets to the body, and there only
on the body and the machine on which it starts. -/
theorem callFunction_congr {ev ev' : Evaluator} (hsettings : ev'.settings = ev.settings)
    (hbody : ∀ start, f.Enters ev.settings.callLimit args receiver loc m start →
      ev'.block f.code.body (m.scopes.child f.frame).1 start =
        ev.block f.code.body (m.scopes.child f.frame).1 start) :
    ev'.callFunction f args receiver loc m = ev.callFunction f args receiver loc m := by
  by_cases hcount : args.length = f.code.params.count
  · rw [callFunction_eq hcount, callFunction_eq hcount]
    refine Eval.bind_congr_left (Eval.inChild_congr ?_)
    rw [runBody_eq, runBody_eq, hsettings]
    cases hbound : Eval.bindCall f args receiver loc (m.scopes.child f.frame).1
        (m.openFrame f.frame) with
    | done _ bound =>
      rw [Eval.bind_of_done hbound, Eval.bind_of_done hbound]
      refine Eval.inCall_congr fun hlimit => Eval.complete_congr ?_
      exact hbody bound.openCall ⟨hcount, bound, hbound, hlimit, rfl⟩
    | left exit m' => rw [Eval.bind_of_left hbound, Eval.bind_of_left hbound]
    | exhausted => rw [Eval.bind_of_exhausted hbound, Eval.bind_of_exhausted hbound]
  · unfold callFunction
    rw [if_neg hcount, if_neg hcount]

variable (ev : Evaluator)

/-- A call fails if the arguments are not what the function asks for. -/
theorem callFunction_of_not_accepts (h : ¬ f.Accepts m.heap args) :
    ∃ problem loc' m', ev.callFunction f args receiver loc m =
      .left (.failed problem loc') m' := by
  by_cases hcount : args.length = f.code.params.count
  · rcases Eval.bindCall_cases hcount receiver loc (m.scopes.child f.frame).1
      (m.openFrame f.frame) with ⟨m', -, -, haccepts⟩ | ⟨problem, loc', m', hfailed⟩
    · exact (h haccepts).elim
    · refine ⟨problem, loc', m'.closeFrame (m.scopes.child f.frame).1, ?_⟩
      rw [callFunction_eq hcount]
      refine Eval.bind_of_left (Eval.inChild_of_left ?_)
      rw [runBody_eq]
      exact Eval.bind_of_left hfailed
  · exact ⟨_, _, m, congrFun (if_neg hcount) m⟩

/-- What a call gives is what the function says it gives. -/
theorem callFunction_honours {m' : Machine} {v : Value}
    (h : ev.callFunction f args receiver loc m = .done v m') : f.Honours m'.heap v := by
  by_cases hcount : args.length = f.code.params.count
  · rw [callFunction_eq hcount] at h
    obtain ⟨c, between, -, hchecked⟩ := Eval.done_of_bind h
    exact Eval.checkReturn_honours hchecked
  · unfold callFunction at h
    rw [if_neg hcount] at h
    cases h

end Evaluator

end Script
