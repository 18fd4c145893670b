import Script.Proofs.Eval.Identical
import Script.Proofs.Eval.Sequences

/-!
# What is called

A call is made in two steps.  It is found out first what is called and with which
arguments: that takes the parts of the call, and a look at what the machine holds.
Then the call is made, and only there the limit on calls is asked.  The call of a
function is refused behind the check of its arguments, which are bound by then, and
the call of an arrow function behind the count of its arguments.
-/

namespace Script

open Scope (Arena FrameId)
open Comparison

/-! ### Calls -/

/-- What a call comes down to. -/
inductive Call where
  | function (f : Closure) (args : List Value) (receiver : Option Value)
  | arrow (f : ArrowClosure) (args : List Value)
  | builtin (f : Builtin) (args : List Value)
  /-- There is nothing that can be called. -/
  | missing (problem : Problem)

namespace Call

def ofValue (callee : Value) (args : List Value) : Call :=
  match callee with
  | .function f => function f args none
  | .arrow f => arrow f args
  | .builtin f => builtin f args
  | v => missing (.notAFunction v.tag)

def ofFree (free : Option Value) (receiver : Value) (args : List Value)
    (problem : Problem) : Call :=
  match free with
  | some f => ofValue f (receiver :: args)
  | none => missing problem

/-- The name under which a call is refused. -/
def name : Call → String
  | function f _ _ => f.name
  | _ => Evaluator.arrowName

end Call

/-- What `receiver.name(args)` comes down to. -/
def Eval.memberCall (receiver : Value) (name : String) (args : List Value)
    (frame : FrameId) : Eval Call := do
  let free ← Eval.freeFunction? frame name
  match receiver with
  | .record cell =>
    let r ← Eval.read (·.heap.instanceAt cell)
    match ← Eval.read fun m => (m.heap.methodsOf r.struct)[name]? with
    | some method => return .function method args (some receiver)
    | none =>
      match r.fields[name]?.filter Value.isCallable with
      | some f => return .ofValue f args
      | none =>
        return .ofFree free receiver args (.propertyNotFound name r.struct.name)
  | .struct d =>
    match ← Eval.read fun m => (m.heap.methodsOf d)[name]? with
    | some method => return .function method args none
    | none => return .ofFree free receiver args (.memberAccess receiver.tag name)
  | .map cell =>
    let v ← Eval.read (·.heap.entry cell (Value.textKey name))
    if v.isCallable then return .ofValue v args
    else return .ofFree free receiver args (.memberAccess receiver.tag name)
  | receiver =>
    return .ofFree free receiver args (.memberAccess receiver.tag name)

/-- Binds the receiver and the arguments of a call, and checks the types. -/
def Eval.bindCall (f : Closure) (args : List Value) (receiver : Option Value)
    (loc : Location) (frame : FrameId) : Eval Unit := do
  match receiver with
  | some v => Eval.define frame "self" v
  | none => pure ()
  Eval.bindParams f.name f.code.params args frame loc

/-- The arguments of a call are as many as they should be and have the types they
should have: the call gets to the point where the limit on calls is asked. -/
def Call.Checked (loc : Location) (m : Machine) : Call → Prop
  | function f args receiver =>
    args.length = f.code.params.count ∧
      ∃ m', Eval.bindCall f args receiver loc (m.scopes.child f.frame).1
        (m.openFrame f.frame) = .done () m'
  | arrow f args => args.length = f.params.length
  | _ => False

/-- What a call comes down to when its parts have been evaluated. -/
def Eval.selectCall (callee : Expr) (v : Value) (args : List Value)
    (frame : FrameId) : Eval Call :=
  match callee with
  | .member _ property _ => memberCall v property.text args frame
  | _ => return .ofValue v args

namespace Evaluator

variable (ev : Evaluator)

/-- What is called, or the object it is a member of, and the arguments. -/
def callParts (callee : Expr) (args : List Expr) (frame : FrameId) :
    Eval (Value × Array Value) := do
  let v ← ev.expr (calleePart callee) frame
  let args ← ev.elementsFrom frame args #[]
  return (v, args)

/-- The place and the first step of a task that is a call. -/
def called? : Task → Option (Location × Eval Call)
  | .apply callee args loc => some (loc, return .ofValue callee args)
  | .expr (.call callee args loc) frame =>
    some (loc, do
      let parts ← ev.callParts callee args frame
      Eval.selectCall callee parts.1 parts.2.toList frame)
  | _ => none

/-- The task finds out that this is called, and the call is made on the machine
`m'`. -/
def Makes (task : Task) (m : Machine) (call : Call) (loc : Location)
    (m' : Machine) : Prop :=
  ∃ found, ev.called? task = some (loc, found) ∧ found m = .done call m'

/-- Makes a call. -/
def perform (loc : Location) : Call → Eval Value
  | .function f args receiver => ev.callFunction f args receiver loc
  | .arrow f args => ev.callArrow f args loc
  | .builtin f args => ev.callBuiltin f args loc
  | .missing problem => Eval.fail problem loc

end Evaluator

/-! ### The two steps -/

namespace Eval

/-- The computation only looks at the machine, and ends with a value. -/
def Looks {α : Type} (c : Eval α) : Prop := ∀ m, ∃ x, c m = .done x m

theorem looks_pure {α : Type} (x : α) : Looks (Pure.pure x) := fun _ => ⟨x, rfl⟩

theorem looks_read {α : Type} (f : Machine → α) : Looks (read f) :=
  fun m => ⟨f m, rfl⟩

theorem Looks.bind {α β : Type} {c : Eval α} {f : α → Eval β} (hc : Looks c)
    (hf : ∀ x, Looks (f x)) : Looks (c >>= f) := by
  intro m
  obtain ⟨x, hx⟩ := hc m
  obtain ⟨y, hy⟩ := hf x m
  refine ⟨y, ?_⟩
  change Eval.bind c f m = _
  unfold Eval.bind
  rw [hx]
  exact hy

theorem looks_memberCall (receiver : Value) (name : String) (args : List Value)
    (frame : FrameId) : Looks (memberCall receiver name args frame) := by
  refine Looks.bind (looks_read _) fun free => ?_
  cases receiver with
  | record cell =>
    refine Looks.bind (looks_read _) fun r =>
      Looks.bind (looks_read _) fun found => ?_
    cases found with
    | some method => exact looks_pure _
    | none =>
      dsimp only
      split
      · exact looks_pure _
      · exact looks_pure _
  | struct d =>
    refine Looks.bind (looks_read _) fun found => ?_
    cases found with
    | some method => exact looks_pure _
    | none => exact looks_pure _
  | map cell =>
    refine Looks.bind (looks_read _) fun v => ?_
    split
    · exact looks_pure _
    · exact looks_pure _
  | _ => exact looks_pure _

theorem looks_selectCall (callee : Expr) (v : Value) (args : List Value)
    (frame : FrameId) : Looks (selectCall callee v args frame) := by
  cases callee with
  | member object property => exact looks_memberCall v property.text args frame
  | _ => exact looks_pure _

end Eval

namespace Evaluator

variable {ev : Evaluator}

theorem call_eq (callee : Value) (args : List Value) (loc : Location) :
    ev.call callee args loc = ev.perform loc (.ofValue callee args) := by
  cases callee <;> rfl

theorem callFree_eq (free : Option Value) (receiver : Value) (args : List Value)
    (problem : Problem) (loc : Location) :
    ev.callFree free receiver args problem loc =
      ev.perform loc (.ofFree free receiver args problem) := by
  cases free with
  | none => rfl
  | some f => exact call_eq f (receiver :: args) loc

theorem callMember_eq (receiver : Value) (name : String) (args : List Value)
    (frame : FrameId) (loc : Location) :
    ev.callMember receiver name args frame loc =
      Eval.memberCall receiver name args frame >>= ev.perform loc := by
  unfold Evaluator.callMember Eval.memberCall
  rw [Eval.bind_assoc]
  refine congrArg (Eval.freeFunction? frame name >>= ·) (funext fun free => ?_)
  cases receiver with
  | record cell =>
    simp only [Eval.bind_assoc]
    refine congrArg (_ >>= ·) (funext fun r =>
      congrArg (_ >>= ·) (funext fun found => ?_))
    cases found with
    | some method => rfl
    | none =>
      dsimp only
      cases r.fields[name]?.filter Value.isCallable with
      | none => exact callFree_eq ..
      | some f => exact call_eq f args loc
  | struct d =>
    simp only [Eval.bind_assoc]
    refine congrArg (_ >>= ·) (funext fun found => ?_)
    cases found with
    | some method => rfl
    | none => exact callFree_eq ..
  | map cell =>
    simp only [Eval.bind_assoc]
    refine congrArg (_ >>= ·) (funext fun v => ?_)
    cases hv : v.isCallable with
    | true => exact call_eq v args loc
    | false => exact callFree_eq ..
  | _ => exact callFree_eq ..

/-- A task that is a call is its two steps. -/
theorem evalTask_eq_of_called? {task : Task} {loc : Location} {found : Eval Call}
    (h : ev.called? task = some (loc, found)) :
    ev.evalTask task = found >>= ev.perform loc := by
  unfold called? at h
  split at h
  · cases h
    exact call_eq ..
  · next callee args loc' frame =>
    cases h
    change ev.callExpr callee args loc frame = _
    unfold Evaluator.callExpr callParts
    simp only [Eval.bind_assoc]
    cases callee with
    | member object property =>
      exact congrArg (_ >>= ·) (funext fun v =>
        congrArg (_ >>= ·) (funext fun args => callMember_eq ..))
    | _ =>
      exact congrArg (_ >>= ·) (funext fun v =>
        congrArg (_ >>= ·) (funext fun args => call_eq ..))
  · cases h

theorem evalTask_of_makes {task : Task} {m m' : Machine} {call : Call}
    {loc : Location} (h : ev.Makes task m call loc m') :
    ev.evalTask task m = ev.perform loc call m' := by
  obtain ⟨found, hcalled, hfound⟩ := h
  rw [evalTask_eq_of_called? hcalled, Eval.bind_of_done hfound]

/-! ### The limit -/

/-- The same evaluator with another limit on calls. -/
def withLimit (ev : Evaluator) (limit : Nat) : Evaluator :=
  { ev with settings := { ev.settings with callLimit := limit } }

theorem runBody_eq (f : Closure) (args : List Value) (receiver : Option Value)
    (loc : Location) (frame : FrameId) :
    ev.runBody f args receiver loc frame =
      Eval.bindCall f args receiver loc frame >>= fun _ =>
        Eval.inCall ev.settings.callLimit f.name loc
          (Eval.complete (ev.block f.code.body frame)) := by
  unfold runBody Eval.bindCall
  cases receiver with
  | none => rfl
  | some v => exact (Eval.bind_assoc ..).symm

theorem callFunction_eq {f : Closure} {args : List Value}
    (hcount : args.length = f.code.params.count) (receiver : Option Value)
    (loc : Location) :
    ev.callFunction f args receiver loc =
      Eval.inChild f.frame (ev.runBody f args receiver loc) >>=
        (Eval.checkReturn f · loc) :=
  if_pos hcount

theorem callArrow_eq {f : ArrowClosure} {args : List Value}
    (hcount : args.length = f.params.length) (loc : Location) :
    ev.callArrow f args loc =
      (Eval.inCall ev.settings.callLimit arrowName loc
        (Eval.inChild f.frame fun frame => do
          Eval.bindNames frame f.params args
          Eval.complete (ev.expr f.body frame))) >>= fun c => pure c.value :=
  if_pos hcount

/-- Binding the arguments does not count as a call. -/
theorem callDepth_bindCall {f : Closure} {args : List Value}
    {receiver : Option Value} {loc : Location} {frame : FrameId} {m m' : Machine}
    (h : Eval.bindCall f args receiver loc frame m = .done () m') :
    m'.callDepth = m.callDepth := by
  have hparams : (identical .together).Follows m.callDepth noJump
      (Eval.bindParams f.name f.code.params args frame loc)
      (Eval.bindParams f.name (f.code.params.relocate id) args frame loc) :=
    Follows.bindParams f.name f.code.params (identical.related_self args) frame loc
  have hbind : (identical .together).Follows m.callDepth noJump
      (Eval.bindCall f args receiver loc frame)
      (Eval.bindCall f args receiver loc frame) := by
    rw [f.code.params.relocate_id] at hparams
    unfold Eval.bindCall
    cases receiver with
    | none => exact hparams
    | some v =>
      exact .bindPlain (.define frame "self" (identical.related_self v))
        fun _ => hparams
  have hend := hbind m m (identical.agree_self m)
  rw [h] at hend
  cases hend with
  | done _ hagree => exact hagree.firstDepth

/-- At the limit a call is refused if its arguments are as they should be. -/
theorem perform_refused {call : Call} {loc : Location} {m : Machine}
    (hlimit : ev.settings.callLimit ≤ m.callDepth) (hchecked : call.Checked loc m) :
    ∃ m', ev.perform loc call m = .left (.failed
      (.recursionDepth ev.settings.callLimit call.name) loc) m' := by
  cases call with
  | function f args receiver =>
    obtain ⟨hcount, bound, hbound⟩ := hchecked
    have hbody : ev.runBody f args receiver loc (m.scopes.child f.frame).1
        (m.openFrame f.frame) =
          .left (.failed (.recursionDepth ev.settings.callLimit f.name) loc)
            bound := by
      have hdepth : bound.callDepth = (m.openFrame f.frame).callDepth :=
        callDepth_bindCall hbound
      change bound.callDepth = m.callDepth at hdepth
      rw [runBody_eq, Eval.bind_of_done hbound]
      exact if_pos (hdepth ▸ hlimit)
    refine ⟨bound.closeFrame (m.scopes.child f.frame).1, ?_⟩
    change ev.callFunction f args receiver loc m = _
    rw [callFunction_eq hcount, Eval.bind_of_left (Eval.inChild_of_left hbody)]
    rfl
  | arrow f args =>
    have hcall : ∀ c : Eval Completion,
        Eval.inCall ev.settings.callLimit arrowName loc c m =
          .left (.failed (.recursionDepth ev.settings.callLimit arrowName) loc) m :=
      fun c => if_pos hlimit
    refine ⟨m, ?_⟩
    change ev.callArrow f args loc m = _
    rw [callArrow_eq hchecked, Eval.bind_of_left (hcall _)]
    rfl
  | builtin f args => exact hchecked.elim
  | missing problem => exact hchecked.elim

/-- Otherwise the limit is not asked, unless by what a built-in function calls. -/
theorem perform_withLimit {call : Call} {loc : Location} {m : Machine}
    (hchecked : ¬ call.Checked loc m)
    (hbuiltin : ∀ f args, call ≠ .builtin f args) (limit : Nat) :
    (ev.withLimit limit).perform loc call m = ev.perform loc call m := by
  cases call with
  | function f args receiver =>
    change (ev.withLimit limit).callFunction f args receiver loc m =
      ev.callFunction f args receiver loc m
    by_cases hcount : args.length = f.code.params.count
    · have hbody : (ev.withLimit limit).runBody f args receiver loc
          (m.scopes.child f.frame).1 (m.openFrame f.frame) =
          ev.runBody f args receiver loc (m.scopes.child f.frame).1
            (m.openFrame f.frame) := by
        rw [runBody_eq, runBody_eq]
        exact Eval.bind_congr_of_not_done fun _ m' h => hchecked ⟨hcount, m', h⟩
      rw [callFunction_eq hcount, callFunction_eq hcount]
      exact Eval.bind_congr_left (Eval.inChild_congr hbody)
    · unfold callFunction
      rw [if_neg hcount, if_neg hcount]
  | arrow f args =>
    change (ev.withLimit limit).callArrow f args loc m = ev.callArrow f args loc m
    have hcount : ¬ args.length = f.params.length := hchecked
    unfold callArrow
    rw [if_neg hcount, if_neg hcount]
  | builtin f args => exact (hbuiltin f args rfl).elim
  | missing problem => rfl

end Evaluator

/-! ### Calls in two evaluators -/

/-- The code that a task evaluates. -/
def Task.piece? : Task → Option Piece
  | .expr e _ => some (.expr e)
  | .stmt s _ => some (.stmt s)
  | .apply .. => none

namespace Comparison

theorem calleePart_relocate (move : Location → Location) (callee : Expr) :
    calleePart (callee.relocate move) = (calleePart callee).relocate move := by
  cases callee <;> rfl

namespace identical

variable {stopping : Leeway} {refusal : Nat → String → Problem}
  {ev₁ ev₂ : Evaluator} {task : Task} {m m' : Machine} {call : Call}
  {loc : Location}

/-- What is called and with which arguments is a matter of the pieces of the call. -/
theorem callParts_matches_of_within {callee : Expr} {args : List Expr} (loc : Location)
    (hwithin : (identical stopping refusal).FollowsWithin ev₁ ev₂ m.callDepth
      (.expr (.call callee args loc))) (frame : FrameId) :
    (identical stopping refusal).Matches m.callDepth anyJump
      (ev₁.callParts callee args frame m) (ev₂.callParts callee args frame m) := by
  have hpiece : ∀ e ∈ callee :: args, (Nesting.beside, Piece.expr e) ∈
      (Piece.expr (.call callee args loc)).children :=
    fun e he => Piece.mem_ofExprs.mpr ⟨rfl, e, he, rfl⟩
  have hcallee := hwithin.callee (hpiece callee List.mem_cons_self)
  have hargs := hwithin.elements fun e he => hpiece e (List.mem_cons_of_mem callee he)
  have hparts : (identical stopping refusal).Follows m.callDepth anyJump
      (ev₁.callParts callee args frame)
      (ev₂.callParts (callee.relocate id) (relocateExprs id args) frame) := by
    unfold Evaluator.callParts
    rw [calleePart_relocate]
    refine .bind ((hcallee frame).weaken fun _ _ => trivial) fun v w hv => ?_
    refine .bind ((Follows.elementsFrom hargs frame .empty).weaken fun _ _ => trivial)
      fun xs ys hxs => ?_
    exact .pure (hv.pair hxs)
  rw [callee.relocate_id, relocateExprs_id] at hparts
  exact hparts m m (agree_self m)

theorem callParts_matches
    (hall : (identical stopping refusal).FollowsAll ev₁ ev₂ m.callDepth)
    (callee : Expr) (args : List Expr) (frame : FrameId) :
    (identical stopping refusal).Matches m.callDepth anyJump
      (ev₁.callParts callee args frame m) (ev₂.callParts callee args frame m) :=
  callParts_matches_of_within default (fun q _ => hall.piece q) frame

/-- Finding out what is called does not count as a call. -/
theorem callDepth_of_makes {ev : Evaluator}
    (hself : (identical .together).FollowsAll ev ev m.callDepth)
    (h : ev.Makes task m call loc m') : m'.callDepth = m.callDepth := by
  obtain ⟨found, hcalled, hfound⟩ := h
  unfold Evaluator.called? at hcalled
  split at hcalled
  · cases hcalled
    cases hfound
    rfl
  · next callee args loc frame =>
    cases hcalled
    obtain ⟨parts, between, hparts, hselected⟩ := Eval.done_of_bind hfound
    obtain ⟨call', hselect⟩ := Eval.looks_selectCall callee parts.1 parts.2.toList
      frame between
    rw [hselect] at hselected
    cases hselected
    have hmatches := callParts_matches hself callee args frame
    rw [hparts] at hmatches
    cases hmatches with
    | done _ hagree => exact hagree.firstDepth
  · cases hcalled

/-- A larger bound for the parts does not change what is called. -/
theorem makes_of_followsAll
    (hall : (identical .alone).FollowsAll ev₁ ev₂ m.callDepth)
    (h : ev₁.Makes task m call loc m') : ev₂.Makes task m call loc m' := by
  obtain ⟨found, hcalled, hfound⟩ := h
  unfold Evaluator.called? at hcalled
  split at hcalled
  · cases hcalled
    exact ⟨_, rfl, hfound⟩
  · next callee args loc frame =>
    cases hcalled
    obtain ⟨parts, between, hparts, hselected⟩ := Eval.done_of_bind hfound
    have hsame := eq_of_matches (callParts_matches hall callee args frame)
    rw [hparts] at hsame
    refine ⟨_, rfl, ?_⟩
    rw [Eval.bind_of_done (hsame.resolve_left nofun).symm]
    exact hselected
  · cases hcalled

/-- What is called does not depend on the limit. -/
theorem called?_withLimit {ev : Evaluator}
    (hself : (identical .together).FollowsAll ev ev m.callDepth)
    {found : Eval Call} (hcalled : ev.called? task = some (loc, found))
    (limit : Nat) :
    ∃ found', (ev.withLimit limit).called? task = some (loc, found') ∧
      found' m = found m := by
  have hall : (identical .together).FollowsAll (ev.withLimit limit) ev m.callDepth :=
    hself.of_run rfl rfl
  unfold Evaluator.called? at hcalled
  split at hcalled
  · cases hcalled
    exact ⟨_, rfl, rfl⟩
  · next callee args loc frame =>
    cases hcalled
    exact ⟨_, rfl, Eval.bind_congr_left
      (eq_of_matches_together (callParts_matches hall callee args frame))⟩
  · cases hcalled

/-- A built-in function does not ask for the limit. -/
theorem callBuiltin_withLimit {ev : Evaluator}
    (hself : (identical .together).FollowsAll ev ev m.callDepth) (f : Builtin)
    (args : List Value) (loc : Location) (limit : Nat) :
    (ev.withLimit limit).callBuiltin f args loc m = ev.callBuiltin f args loc m := by
  have hall : (identical .together).FollowsAll (ev.withLimit limit) ev m.callDepth :=
    hself.of_run rfl rfl
  exact eq_of_matches_together (Follows.callBuiltin (hall.apply 3) f
    (Nat.min_le_right _ _) (related_self args) loc m m (agree_self m))

/-- A task that is no call is a matter of the pieces of its code. -/
theorem evalTask_matches_of_within (hstop : stopping ≠ .never)
    (halike : (identical stopping refusal).Alike ev₁ ev₂)
    (hwithin : ∀ p, task.piece? = some p →
      (identical stopping refusal).FollowsWithin ev₁ ev₂ m.callDepth p)
    (hnone : ev₂.called? task = none) :
    (identical stopping refusal).Matches m.callDepth task.Jumps
      (ev₁.evalTask task m) (ev₂.evalTask task m) := by
  cases task with
  | expr e frame =>
    have hcall : ¬ (Piece.expr e).IsCall := by
      intro hcall
      cases e with
      | call => cases hnone
      | _ => exact hcall
    have hexpr := Follows.evalExpr halike (fun h => (hcall h).elim)
      (hwithin (.expr e) rfl) (Recoding.still_keeps refusal _)
      (fun h => (hstop h).elim) frame m m (agree_self m)
    rwa [show e.relocate (identical stopping refusal).move = e from
      e.relocate_id] at hexpr
  | stmt s frame =>
    have hstmt := Follows.evalStmt halike (hwithin (.stmt s) rfl)
      (Recoding.still_keeps refusal _) frame m m (agree_self m)
    rwa [show s.relocate (identical stopping refusal).move = s from
      s.relocate_id] at hstmt
  | apply => cases hnone

/-- A task that is no call does not ask for the limit. -/
theorem evalTask_matches_of_called?_none (hstop : stopping ≠ .never)
    (halike : (identical stopping refusal).Alike ev₁ ev₂)
    (hall : (identical stopping refusal).FollowsAll ev₁ ev₂ m.callDepth)
    (hnone : ev₂.called? task = none) :
    (identical stopping refusal).Matches m.callDepth task.Jumps
      (ev₁.evalTask task m) (ev₂.evalTask task m) :=
  evalTask_matches_of_within hstop halike (fun _ _ q _ => hall.piece q) hnone

/-! ### Raising the limit -/

/-- The rules are the same for a higher limit, but for calls that are refused.  All
parts are carried out under one limit here. -/
theorem evalTask_withLimit {ev : Evaluator}
    (hself : ∀ depth, (identical .together).FollowsAll ev ev depth)
    (task : Task) (m : Machine) {limit : Nat}
    (hlow : ev.settings.callLimit ≤ limit) :
    (ev.withLimit limit).evalTask task m = ev.evalTask task m ∨
      ∃ call loc m', ev.Makes task m call loc m' ∧
        ev.settings.callLimit ≤ m'.callDepth ∧ call.Checked loc m' := by
  have hall : ∀ depth, (identical .together).FollowsAll (ev.withLimit limit) ev
      depth := fun depth => (hself depth).of_run rfl rfl
  have halike : (identical .together).Alike (ev.withLimit limit) ev :=
    alike rfl (Or.inl rfl)
  by_cases hdepth : m.callDepth < ev.settings.callLimit
  · left
    have hlimits : m.callDepth < (ev.withLimit limit).settings.callLimit :=
      Nat.lt_of_lt_of_le hdepth hlow
    have hnext : (identical .together).FollowsAll
        { ev with run := (ev.withLimit limit).evalTask }
        { ev with run := ev.evalTask } m.callDepth :=
      (hall m.callDepth).next rfl rfl (Recoding.still_keeps _) (by nofun) halike
        fun n => (hall m.callDepth).sides (Or.inr ⟨hlimits, hdepth⟩)
          (fun _ => hall (m.callDepth + 1)) (fun _ _ => rfl) n
    exact eq_of_matches_together (followsAll_iff.mp hnext task m rfl)
  · cases hcalled : ev.called? task with
    | none =>
      have hmatches := evalTask_matches_of_called?_none (by nofun) halike
        (hall m.callDepth) hcalled
      exact Or.inl (eq_of_matches_together hmatches)
    | some step =>
      obtain ⟨loc, found⟩ := step
      obtain ⟨found', hcalled', hsame⟩ :=
        called?_withLimit (hself m.callDepth) hcalled limit
      rw [Evaluator.evalTask_eq_of_called? hcalled,
        Evaluator.evalTask_eq_of_called? hcalled']
      cases hfound : found m with
      | done call m' =>
        rw [hfound] at hsame
        rw [Eval.bind_of_done hfound, Eval.bind_of_done hsame]
        have hmakes : ev.Makes task m call loc m' := ⟨found, hcalled, hfound⟩
        have hdepth' := callDepth_of_makes (hself m.callDepth) hmakes
        by_cases hchecked : call.Checked loc m'
        · exact Or.inr ⟨call, loc, m', hmakes, by omega, hchecked⟩
        · left
          by_cases hbuiltin : ∃ f args, call = .builtin f args
          · obtain ⟨f, args, rfl⟩ := hbuiltin
            exact callBuiltin_withLimit (hself m'.callDepth) f args loc limit
          · exact Evaluator.perform_withLimit hchecked
              (fun f args hcall => hbuiltin ⟨f, args, hcall⟩) limit
      | left exit m' =>
        rw [hfound] at hsame
        rw [Eval.bind_of_left hfound, Eval.bind_of_left hsame]
        exact Or.inl rfl
      | exhausted =>
        rw [hfound] at hsame
        rw [Eval.bind_of_exhausted hfound, Eval.bind_of_exhausted hsame]
        exact Or.inl rfl

end identical

end Comparison

end Script
