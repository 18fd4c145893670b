import Script.Proofs.Eval.Annotations
import Script.Proofs.Eval.CallPaths

/-!
# Unknown types

An annotation that contains the name of no type is refused before a value is checked against
it: in a declaration, of a parameter, and as the one return type of a function.  Several
return types are never looked up.
-/

namespace Script

open Scope (Arena FrameId)

/-! ### Parameters -/

namespace Eval

theorem bindTyped_append (function : String) (frame : FrameId) (loc : Location)
    {before : List TypedName} {values : List Value} (hcount : values.length = before.length)
    (after : List TypedName) (rest : List Value) :
    bindTyped function frame loc (before ++ after) (values ++ rest) =
      bindTyped function frame loc before values >>= fun _ =>
        bindTyped function frame loc after rest := by
  induction before generalizing values with
  | nil =>
    obtain rfl := List.length_eq_zero_iff.mp hcount
    rfl
  | cons param before ih =>
    cases values with
    | nil => cases hcount
    | cons v values =>
      change (checkArgument function param v frame loc >>= fun _ =>
        define frame param.name.text v >>= fun _ =>
          bindTyped function frame loc (before ++ after) (values ++ rest)) =
        (checkArgument function param v frame loc >>= fun _ =>
          define frame param.name.text v >>= fun _ =>
            bindTyped function frame loc before values) >>= fun _ =>
              bindTyped function frame loc after rest
      rw [ih (Nat.succ.inj hcount)]
      simp only [bind_assoc]

end Eval

/-- The machine on which the arguments of a call are bound: the frame of the call is open,
and the receiver is bound there. -/
def Machine.entered (m : Machine) (f : Closure) : Option Value → Machine
  | none => m.openFrame f.frame
  | some v =>
    { m.openFrame f.frame with
      scopes := (m.openFrame f.frame).scopes.set (m.scopes.child f.frame).1 "self" v }

namespace Closure

variable {f : Closure} {args : List Value} {receiver : Option Value} {loc : Location}
  {m here : Machine} {param : TypedName}

/-- The call of a function on the machine `m` comes to the annotation of a parameter on the
machine `here`: there are as many arguments as parameters, and those in front have been
checked and bound. -/
def ComesTo (f : Closure) (args : List Value) (receiver : Option Value) (loc : Location)
    (m : Machine) (param : TypedName) (here : Machine) : Prop :=
  ∃ before after values rest, f.code.params = .typed (before ++ param :: after) ∧
    args = values ++ rest ∧ values.length = before.length ∧ rest.length = after.length + 1 ∧
    Eval.bindTyped f.name (m.scopes.child f.frame).1 loc before values
      (m.entered f receiver) = .done () here

theorem bindCall_eq (f : Closure) (args : List Value) (receiver : Option Value)
    (loc : Location) (m : Machine) :
    Eval.bindCall f args receiver loc (m.scopes.child f.frame).1 (m.openFrame f.frame) =
      Eval.bindParams f.name f.code.params args (m.scopes.child f.frame).1 loc
        (m.entered f receiver) := by
  cases receiver <;> rfl

theorem ComesTo.count (h : f.ComesTo args receiver loc m param here) :
    args.length = f.code.params.count := by
  obtain ⟨before, after, values, rest, hparams, rfl, hvalues, hrest, -⟩ := h
  rw [hparams, List.length_append, hvalues, hrest]
  simp [Params.count]

/-- The call goes no further than an annotation with an unknown type. -/
theorem ComesTo.bindCall_refused (h : f.ComesTo args receiver loc m param here)
    (hunknown : ¬ param.type.Known here.scopes (m.scopes.child f.frame).1) :
    ∃ name loc', param.type.FirstUnknown here.scopes (m.scopes.child f.frame).1 name loc' ∧
      Eval.bindCall f args receiver loc (m.scopes.child f.frame).1 (m.openFrame f.frame) =
        .left (.failed (.unknownType name) loc') here := by
  obtain ⟨name, loc', hfirst, hrefused⟩ := Eval.requireKnown_of_not_known hunknown
  refine ⟨name, loc', hfirst, ?_⟩
  obtain ⟨before, after, values, rest, hparams, rfl, hvalues, hrest, hbound⟩ := h
  rw [bindCall_eq, hparams, Eval.bindParams, Eval.bindTyped_append _ _ _ hvalues,
    Eval.bind_of_done hbound]
  -- The annotation is looked up whatever the argument is.
  cases rest with
  | nil => cases hrest
  | cons v rest => exact Eval.bind_of_left (Eval.bind_of_left hrefused)

end Closure

namespace Evaluator

variable (ev : Evaluator) {f : Closure} {args : List Value} {receiver : Option Value}
  {loc : Location} {m m' here : Machine}

theorem callFunction_of_unknown_param {param : TypedName}
    (h : f.ComesTo args receiver loc m param here)
    (hunknown : ¬ param.type.Known here.scopes (m.scopes.child f.frame).1) :
    ∃ name loc', param.type.FirstUnknown here.scopes (m.scopes.child f.frame).1 name loc' ∧
      ev.callFunction f args receiver loc m =
        .left (.failed (.unknownType name) loc')
          (here.closeFrame (m.scopes.child f.frame).1) := by
  obtain ⟨name, loc', hfirst, hrefused⟩ := h.bindCall_refused hunknown
  refine ⟨name, loc', hfirst, ?_⟩
  rw [callFunction_eq h.count]
  refine Eval.bind_of_left (Eval.inChild_of_left ?_)
  rw [runBody_eq]
  exact Eval.bind_of_left hrefused

/-! ### Return types -/

/-- The body of a call has come to its end: with this, and on the machine `m'`. -/
structure Completes (ev : Evaluator) (f : Closure) (args : List Value)
    (receiver : Option Value) (loc : Location) (m : Machine) (c : Completion)
    (m' : Machine) : Prop where
  count : args.length = f.code.params.count
  ran : Eval.inChild f.frame (ev.runBody f args receiver loc) m = .done c m'

variable {ev} {c : Completion}

theorem Completes.callFunction_eq (h : ev.Completes f args receiver loc m c m') :
    ev.callFunction f args receiver loc m = Eval.checkReturn f c loc m' := by
  rw [Evaluator.callFunction_eq h.count]
  exact Eval.bind_of_done h.ran

end Evaluator

namespace Eval

variable {f : Closure} {c : Completion} {loc : Location} {m : Machine}

theorem checkReturn_of_unknown {type : TypeExpr} (hreturns : f.code.returns = [type])
    (hunknown : ¬ type.Known m.scopes f.frame) :
    ∃ name loc', type.FirstUnknown m.scopes f.frame name loc' ∧
      checkReturn f c loc m = .left (.failed (.unknownType name) loc') m := by
  obtain ⟨name, loc', hfirst, hrefused⟩ := requireKnown_of_not_known hunknown
  refine ⟨name, loc', hfirst, ?_⟩
  unfold checkReturn
  rw [hreturns]
  exact bind_of_left hrefused

/-- Several return types are compared with what is given, and not looked up. -/
theorem checkReturn_of_several (hseveral : 2 ≤ f.code.returns.length) :
    (f.Honours m.heap c.value → checkReturn f c loc m = .done c.value m) ∧
    (¬ f.Honours m.heap c.value → ∃ got, checkReturn f c loc m =
      .left (.failed (.returnType f.name
        (typesText (f.code.returns.map TypeExpr.print)) got) loc) m) := by
  unfold checkReturn Closure.Honours
  rcases hreturns : f.code.returns with _ | ⟨type, _ | ⟨second, types⟩⟩
  · rw [hreturns] at hseveral
    cases hseveral
  · rw [hreturns] at hseveral
    cases hseveral with
    | step h => cases h
  · dsimp only
    rcases checkSeveral_cases m.heap f.name (type :: second :: types) c.value with
      ⟨cell, hv, hall, hchecked⟩ | ⟨hnot, got, hchecked⟩
    · refine ⟨fun _ => ?_, fun hnot => (hnot ⟨cell, hv, hall⟩).elim⟩
      rw [askHeap, hchecked]
    · refine ⟨fun hhonours => (hnot hhonours).elim, fun _ => ⟨got, ?_⟩⟩
      rw [askHeap, hchecked]

end Eval

/-! ### Unknown types -/

/-- An annotation with a name that does not stand for a type is refused because of the first
such name, and nothing is checked against it.  In a declaration the names are looked up in
the frame of the declaration, once the value has been evaluated; for a parameter in the frame
of the call, once the arguments in front are bound, in whatever way the call is made; for a
function with one return type where the function was made, once its body has come to its end.
A function with several return types does not look them up: it gives what its body has given
if that has these types, and fails with a wrong result otherwise. -/
theorem unknown_types_refused (settings : Settings) (n : Nat) :
    let ev := Evaluator.bounded settings n
    (∀ name, (Problem.unknownType name).code.text = "E0034") ∧
    (∀ constant name type value loc frame m v m₁,
      evaluate settings n (.expr value frame) m = .done v m₁ →
      ¬ type.Known m₁.scopes frame →
      ∃ unknown at', type.FirstUnknown m₁.scopes frame unknown at' ∧
        evaluate settings (n + 1) (.stmt (.bind constant name (some type) value loc) frame) m =
          .left (.failed (.unknownType unknown) at') m₁) ∧
    ∀ task m f args receiver loc m₁, ev.CallPath task m f args receiver loc m₁ →
      let o := evaluate settings (n + 1) task m
      let frame := (m₁.scopes.child f.frame).1
      (∀ param here, f.ComesTo args receiver loc m₁ param here →
        ¬ param.type.Known here.scopes frame →
        ∃ unknown at', param.type.FirstUnknown here.scopes frame unknown at' ∧
          o = .left (.failed (.unknownType unknown) at') (here.closeFrame frame)) ∧
      ∀ c m₂, ev.Completes f args receiver loc m₁ c m₂ →
        (∀ type, f.code.returns = [type] → ¬ type.Known m₂.scopes f.frame →
          ∃ unknown at', type.FirstUnknown m₂.scopes f.frame unknown at' ∧
            o = .left (.failed (.unknownType unknown) at') m₂) ∧
        (2 ≤ f.code.returns.length →
          (f.Honours m₂.heap c.value → o = .done c.value m₂) ∧
          (¬ f.Honours m₂.heap c.value → ∃ got, o = .left (.failed (.returnType f.name
            (Eval.typesText (f.code.returns.map TypeExpr.print)) got) loc) m₂)) := by
  intro ev
  refine ⟨fun _ => rfl, ?_, ?_⟩
  · intro constant name type value loc frame m v m₁ hvalue hunknown
    obtain ⟨unknown, at', hfirst, hrefused⟩ := Eval.requireKnown_of_not_known hunknown
    refine ⟨unknown, at', hfirst, ?_⟩
    rw [evaluate_annotated hvalue]
    exact Eval.bind_of_left (Eval.bind_of_left hrefused)
  · intro task m f args receiver loc m₁ hpath o frame
    have hrun : o = ev.callFunction f args receiver loc m₁ := ev.evalTask_of_makes hpath.makes
    rw [hrun]
    refine ⟨fun param here hcomes hunknown => ev.callFunction_of_unknown_param hcomes hunknown,
      fun c m₂ hcompletes => ?_⟩
    rw [hcompletes.callFunction_eq]
    exact ⟨fun type hreturns hunknown => Eval.checkReturn_of_unknown hreturns hunknown,
      Eval.checkReturn_of_several⟩

/-- A type with a name that nothing is bound to. -/
def foo : TypeExpr := .named "Foo" default

/-- A function `f` with these parameters and return types that gives the array `[1, 2]`. -/
def givesPair (params : List TypedName) (returns : List TypeExpr) : Closure :=
  ⟨0, { name := some "f"
        params := .typed params
        returns
        body := ⟨[.ret (some (.array [.int 1 default, .int 2 default] default)) default],
          default⟩
        loc := default }, Arena.root⟩

theorem foo_not_known {scopes : Arena Value} {frame : FrameId}
    (h : scopes.get? frame "Foo" = none) : ¬ foo.Known scopes frame := by
  intro hknown
  rcases hknown ("Foo", default) (List.mem_singleton_self _) with hbase | ⟨d, hd⟩ | ⟨d, hd⟩
  · exact absurd hbase (by decide)
  · cases h.symm.trans hd
  · cases h.symm.trans hd

theorem foo_firstUnknown {scopes : Arena Value} {frame : FrameId} {name : String}
    {loc : Location} (h : foo.FirstUnknown scopes frame name loc) : name = "Foo" := by
  obtain ⟨before, after, hnames, -⟩ := h
  have hmem : (name, loc) ∈ foo.names := hnames ▸ by simp
  exact congrArg Prod.fst (List.mem_singleton.mp hmem)

/-- `let x: [][]Foo = 1`, `f(1)` for `define f(x: Foo)`, and `g()` for `define g() -> Foo`,
which gives an array: each fails because of `Foo`. -/
theorem unknown_types_refused_foo :
    (∃ at' m', evaluate ⟨1, .empty⟩ 2 (.stmt (.bind false ⟨"x", default⟩
      (some (.array (.array foo default) default)) (.int 1 default) default) Arena.root) {} =
        .left (.failed (.unknownType "Foo") at') m') ∧
    (∃ at' m', evaluate ⟨1, .empty⟩ 5 (.apply (.function (givesPair [⟨⟨"x", default⟩, foo⟩] []))
      [.int 1] default) {} = .left (.failed (.unknownType "Foo") at') m') ∧
    ∃ at' m', evaluate ⟨1, .empty⟩ 5 (.apply (.function (givesPair [] [foo])) [] default) {} =
      .left (.failed (.unknownType "Foo") at') m' := by
  refine ⟨?_, ?_, ?_⟩
  · obtain ⟨-, hdeclares, -⟩ := unknown_types_refused ⟨1, .empty⟩ 1
    obtain ⟨unknown, at', hfirst, heq⟩ := hdeclares false ⟨"x", default⟩
      (.array (.array foo default) default) (.int 1 default) default Arena.root {} _ _ rfl
      (foo_not_known rfl)
    obtain rfl := foo_firstUnknown hfirst
    exact ⟨at', _, heq⟩
  · obtain ⟨-, -, hcalls⟩ := unknown_types_refused ⟨1, .empty⟩ 4
    obtain ⟨hparams, -⟩ := hcalls _ {} (givesPair [⟨⟨"x", default⟩, foo⟩] []) [.int 1] none
      default {} .callback
    obtain ⟨unknown, at', hfirst, heq⟩ := hparams ⟨⟨"x", default⟩, foo⟩ _
      ⟨[], [], [], [.int 1], rfl, rfl, rfl, rfl, rfl⟩ (foo_not_known rfl)
    obtain rfl := foo_firstUnknown hfirst
    exact ⟨at', _, heq⟩
  · obtain ⟨-, -, hcalls⟩ := unknown_types_refused ⟨1, .empty⟩ 4
    obtain ⟨-, hreturns⟩ := hcalls _ {} (givesPair [] [foo]) [] none default {} .callback
    obtain ⟨unknown, at', hfirst, heq⟩ := (hreturns _ _ ⟨rfl, rfl⟩).1 foo rfl (foo_not_known rfl)
    obtain rfl := foo_firstUnknown hfirst
    exact ⟨at', _, heq⟩

/-- A call of `define f() -> (int, Foo) { return [1, 2] }` comes to its end, and fails with a
wrong result instead of an unknown type. -/
theorem several_returns_not_looked_up :
    let f := givesPair [] [.named "int" default, foo]
    ¬ foo.Known ({} : Machine).scopes f.frame ∧
    ∃ m', evaluate ⟨1, .empty⟩ 5 (.apply (.function f) [] default) {} =
      .left (.failed (.returnType "f" "(int, Foo)" "(int, int)") default) m' :=
  ⟨foo_not_known rfl, _, rfl⟩

end Script
