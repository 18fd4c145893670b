import Script.Proofs.Eval.CallLimit
import Script.Proofs.Eval.Signatures

/-!
# Ways to call a function

There are several ways to write a call, and built-in functions make calls as well.  All of
them come down to the same call of a function, which is where its arguments and its result
are checked, and nothing else starts the body of a function.
-/

namespace Script

open Scope (Arena FrameId)
open Comparison

/-! ### Ways -/

/-- What a value itself has to be called under a name: a method, or a field or an entry that
can be called. -/
def Heap.ownCall? (h : Heap) (v : Value) (name : String) (args : List Value) : Option Call :=
  match v with
  | .record cell =>
    match (h.methodsOf (h.instanceAt cell).struct)[name]? with
    | some method => some (.function method args (some v))
    | none =>
      ((h.instanceAt cell).fields[name]?.filter Value.isCallable).map
        (Call.ofValue · args)
  | .struct d => ((h.methodsOf d)[name]?).map (Call.function · args none)
  | .map cell =>
    if (h.entry cell (Value.textKey name)).isCallable then
      some (.ofValue (h.entry cell (Value.textKey name)) args)
    else none
  | _ => none

/-- The ways in which a task on a machine comes to call a function: which function, with
which arguments and receiver, at which place, and on which machine. -/
inductive Evaluator.CallPath (ev : Evaluator) :
    Task → Machine → Closure → List Value → Option Value → Location → Machine → Prop where
  /-- `f(args)` -/
  | direct {callee : Expr} {args : List Expr} {loc : Location} {frame : FrameId}
      {m m₁ : Machine} {f : Closure} {values : Array Value}
      (hplain : ∀ object property loc', callee ≠ .member object property loc')
      (hparts : ev.callParts callee args frame m = .done (.function f, values) m₁) :
      CallPath ev (.expr (.call callee args loc) frame) m f values.toList none loc m₁
  /-- `object.name(args)`, where the struct of the object has a method of that name -/
  | method {object : Expr} {name : Name} {loc' : Location} {args : List Expr} {loc : Location}
      {frame : FrameId} {m m₁ : Machine} {f : Closure} {values : Array Value} {cell : Nat}
      (hparts : ev.callParts (.member object name loc') args frame m =
        .done (.record cell, values) m₁)
      (hmethod : (m₁.heap.methodsOf (m₁.heap.instanceAt cell).struct)[name.text]? =
        some f) :
      CallPath ev (.expr (.call (.member object name loc') args loc) frame) m f values.toList
        (some (.record cell)) loc m₁
  /-- `Struct.name(args)` -/
  | structMethod {object : Expr} {name : Name} {loc' : Location} {args : List Expr}
      {loc : Location} {frame : FrameId} {m m₁ : Machine} {f : Closure}
      {values : Array Value} {d : StructDef}
      (hparts : ev.callParts (.member object name loc') args frame m =
        .done (.struct d, values) m₁)
      (hmethod : (m₁.heap.methodsOf d)[name.text]? = some f) :
      CallPath ev (.expr (.call (.member object name loc') args loc) frame) m f values.toList
        none loc m₁
  /-- `object.name(args)`, where a field of the object is a function -/
  | field {object : Expr} {name : Name} {loc' : Location} {args : List Expr} {loc : Location}
      {frame : FrameId} {m m₁ : Machine} {f : Closure} {values : Array Value} {cell : Nat}
      (hparts : ev.callParts (.member object name loc') args frame m =
        .done (.record cell, values) m₁)
      (hmethod : (m₁.heap.methodsOf (m₁.heap.instanceAt cell).struct)[name.text]? = none)
      (hfield : (m₁.heap.instanceAt cell).fields[name.text]? = some (.function f)) :
      CallPath ev (.expr (.call (.member object name loc') args loc) frame) m f values.toList
        none loc m₁
  /-- `map.name(args)`, where an entry of the map is a function -/
  | entry {object : Expr} {name : Name} {loc' : Location} {args : List Expr} {loc : Location}
      {frame : FrameId} {m m₁ : Machine} {f : Closure} {values : Array Value} {cell : Nat}
      (hparts : ev.callParts (.member object name loc') args frame m =
        .done (.map cell, values) m₁)
      (hentry : m₁.heap.entry cell (Value.textKey name.text) = .function f) :
      CallPath ev (.expr (.call (.member object name loc') args loc) frame) m f values.toList
        none loc m₁
  /-- `value.name(args)`, where the name stands for a function that takes the value as its
  first argument -/
  | uniform {object : Expr} {name : Name} {loc' : Location} {args : List Expr} {loc : Location}
      {frame : FrameId} {m m₁ : Machine} {f : Closure} {values : Array Value} {v : Value}
      (hparts : ev.callParts (.member object name loc') args frame m = .done (v, values) m₁)
      (hown : m₁.heap.ownCall? v name.text values.toList = none)
      (hfree : Eval.freeFunction? frame name.text m₁ = .done (some (.function f)) m₁) :
      CallPath ev (.expr (.call (.member object name loc') args loc) frame) m f
        (v :: values.toList) none loc m₁
  /-- A call that a built-in function makes, such as that of `map` for an item -/
  | callback {f : Closure} {args : List Value} {loc : Location} {m : Machine} :
      CallPath ev (.apply (.function f) args loc) m f args none loc m

/-! ### One call -/

/-- What a value itself has to be called comes first, and a function in scope after it. -/
theorem Eval.memberCall_eq (v : Value) (name : String) (args : List Value) (frame : FrameId)
    (m : Machine) {free : Option Value} (hfree : freeFunction? frame name m = .done free m) :
    ∃ problem, memberCall v name args frame m =
      .done ((m.heap.ownCall? v name args).getD (.ofFree free v args problem)) m := by
  unfold memberCall
  rw [bind_of_done hfree]
  cases v with
  | record cell =>
    refine ⟨.propertyNotFound name (m.heap.instanceAt cell).struct.name,
      (bind_of_done rfl).trans ((bind_of_done rfl).trans ?_)⟩
    unfold Heap.ownCall?
    dsimp only
    cases (m.heap.methodsOf (m.heap.instanceAt cell).struct)[name]? with
    | some method => rfl
    | none =>
      dsimp only
      cases (m.heap.instanceAt cell).fields[name]?.filter Value.isCallable <;> rfl
  | struct d =>
    refine ⟨.memberAccess (Value.struct d).tag name, (bind_of_done rfl).trans ?_⟩
    unfold Heap.ownCall?
    dsimp only
    cases (m.heap.methodsOf d)[name]? <;> rfl
  | map cell =>
    refine ⟨.memberAccess (Value.map cell).tag name, (bind_of_done rfl).trans ?_⟩
    unfold Heap.ownCall?
    dsimp only
    split <;> rfl
  | _ => exact ⟨_, rfl⟩

namespace Evaluator

variable {ev : Evaluator} {task : Task} {m m₁ : Machine} {f : Closure} {args : List Value}
  {receiver : Option Value} {loc : Location}

/-- The call of a member is what the value has under the name, or what is in scope. -/
theorem makes_of_member {object : Expr} {name : Name} {loc' : Location} {exprs : List Expr}
    {frame : FrameId} {v : Value} {values : Array Value}
    (hparts : ev.callParts (.member object name loc') exprs frame m = .done (v, values) m₁)
    {free : Option Value} (hfree : Eval.freeFunction? frame name.text m₁ = .done free m₁)
    {call : Call} (hcall : ∀ problem, (m₁.heap.ownCall? v name.text values.toList).getD
      (.ofFree free v values.toList problem) = call) (loc : Location) :
    ev.Makes (.expr (.call (.member object name loc') exprs loc) frame) m call loc m₁ := by
  obtain ⟨problem, hmember⟩ := Eval.memberCall_eq v name.text values.toList frame m₁ hfree
  rw [hcall problem] at hmember
  exact ⟨_, rfl, (Eval.bind_of_done hparts).trans hmember⟩

/-- Each way comes down to the call. -/
theorem CallPath.makes (h : ev.CallPath task m f args receiver loc m₁) :
    ev.Makes task m (.function f args receiver) loc m₁ := by
  cases h with
  | @direct callee _ _ _ _ _ _ _ hplain hparts =>
    refine ⟨_, rfl, (Eval.bind_of_done hparts).trans ?_⟩
    cases callee with
    | member object property loc' => exact (hplain _ _ _ rfl).elim
    | _ => rfl
  | method hparts hmethod =>
    refine makes_of_member hparts rfl (fun _ => ?_) loc
    simp only [Heap.ownCall?, hmethod, Option.getD_some]
  | structMethod hparts hmethod =>
    refine makes_of_member hparts rfl (fun _ => ?_) loc
    simp only [Heap.ownCall?, hmethod, Option.map_some, Option.getD_some]
  | field hparts hmethod hfield =>
    refine makes_of_member hparts rfl (fun _ => ?_) loc
    simp only [Heap.ownCall?, hmethod, hfield]
    rfl
  | entry hparts hentry =>
    refine makes_of_member hparts rfl (fun _ => ?_) loc
    simp only [Heap.ownCall?, hentry]
    rfl
  | uniform hparts hown hfree =>
    refine makes_of_member hparts hfree (fun _ => ?_) loc
    rw [hown]
    rfl
  | callback => exact ⟨_, rfl, rfl⟩

end Evaluator

theorem Call.function_of_ofValue {callee : Value} {values args : List Value} {f : Closure}
    {receiver : Option Value} (h : Call.ofValue callee values = .function f args receiver) :
    callee = .function f ∧ args = values ∧ receiver = none := by
  cases callee with
  | function g =>
    cases h
    exact ⟨rfl, rfl, rfl⟩
  | _ => cases h

theorem Call.function_of_ofFree {free : Option Value} {v : Value}
    {values args : List Value} {problem : Problem} {f : Closure} {receiver : Option Value}
    (h : Call.ofFree free v values problem = .function f args receiver) :
    free = some (.function f) ∧ args = v :: values ∧ receiver = none := by
  cases free with
  | none => cases h
  | some callee =>
    obtain ⟨rfl, hargs, hreceiver⟩ := function_of_ofValue h
    exact ⟨rfl, hargs, hreceiver⟩

namespace Evaluator

variable {ev : Evaluator} {task : Task} {m m₁ : Machine} {f : Closure} {args : List Value}
  {receiver : Option Value} {loc : Location}

/-- What a value itself has is a method, a field or an entry. -/
theorem CallPath.of_own {object : Expr} {name : Name} {loc' : Location} {exprs : List Expr}
    {frame : FrameId} {v : Value} {values : Array Value}
    (hparts : ev.callParts (.member object name loc') exprs frame m = .done (v, values) m₁)
    (hown : m₁.heap.ownCall? v name.text values.toList = some (.function f args receiver)) :
    ev.CallPath (.expr (.call (.member object name loc') exprs loc) frame) m f args receiver
      loc m₁ := by
  unfold Heap.ownCall? at hown
  split at hown
  · next cell =>
    split at hown
    · next method hmethod =>
      cases hown
      exact .method hparts hmethod
    · next hmethod =>
      obtain ⟨callee, hfield, hcall⟩ := Option.map_eq_some_iff.mp hown
      obtain ⟨rfl, rfl, rfl⟩ := Call.function_of_ofValue hcall
      exact .field hparts hmethod (Option.filter_eq_some_iff.mp hfield).1
  · next d =>
    obtain ⟨method, hmethod, hcall⟩ := Option.map_eq_some_iff.mp hown
    cases hcall
    exact .structMethod hparts hmethod
  · next cell =>
    split at hown
    · obtain ⟨hentry, rfl, rfl⟩ := Call.function_of_ofValue (Option.some.inj hown)
      exact .entry hparts hentry
    · cases hown
  · cases hown

/-- There are no other ways to call a function. -/
theorem callPath_of_makes (h : ev.Makes task m (.function f args receiver) loc m₁) :
    ev.CallPath task m f args receiver loc m₁ := by
  obtain ⟨found, hcalled, hfound⟩ := h
  unfold called? at hcalled
  split at hcalled
  · next callee values loc' =>
    cases hcalled
    obtain ⟨hcall, rfl⟩ := Outcome.done.inj hfound
    obtain ⟨rfl, rfl, rfl⟩ := Call.function_of_ofValue hcall
    exact .callback
  · next callee exprs loc' frame =>
    cases hcalled
    obtain ⟨⟨v, values⟩, between, hparts, hselected⟩ := Eval.done_of_bind hfound
    cases callee with
    | member object name loc' =>
      obtain ⟨problem, hmember⟩ :=
        Eval.memberCall_eq v name.text values.toList frame between rfl
      obtain ⟨hcall, rfl⟩ := Outcome.done.inj (hmember.symm.trans hselected)
      cases hown : between.heap.ownCall? v name.text values.toList with
      | none =>
        rw [hown, Option.getD_none] at hcall
        obtain ⟨hfree, rfl, rfl⟩ := Call.function_of_ofFree hcall
        exact .uniform hparts hown (congrArg (Outcome.done · between) hfree)
      | some call =>
        rw [hown] at hcall
        exact .of_own hparts (hcall ▸ hown)
    | _ =>
      obtain ⟨hcall, rfl⟩ := Outcome.done.inj hselected
      obtain ⟨rfl, rfl, rfl⟩ := Call.function_of_ofValue hcall
      exact .direct nofun hparts
  · cases hcalled

end Evaluator

/-! ### What starts a body -/

/-- The task that evaluates a piece of code. -/
def Piece.task (frame : FrameId) : Piece → Task
  | .expr e => .expr e frame
  | .stmt s => .stmt s frame

/-- The tasks that a task may start: the pieces of its own code, outside the bodies of
functions that are made there; if it is a call, the body of a function that the call gets
to, the body of an arrow function, and what a built-in function calls. -/
inductive Evaluator.Starts (ev : Evaluator) (task : Task) (m : Machine) :
    Task → Machine → Prop where
  | within {p q : Piece} (hp : task.piece? = some p) (hq : q.Within p) (frame : FrameId)
      (m' : Machine) : Starts ev task m (q.task frame) m'
  | body {f : Closure} {args : List Value} {receiver : Option Value} {loc : Location}
      {m₁ start : Machine} {s : Stmt} (hpath : ev.CallPath task m f args receiver loc m₁)
      (henters : f.Enters ev.settings.callLimit args receiver loc m₁ start)
      (hs : s ∈ f.code.body.statements) (m' : Machine) :
      Starts ev task m (.stmt s (m₁.scopes.child f.frame).1) m'
  | arrow {f : ArrowClosure} {args : List Value} {loc : Location} {m₁ : Machine}
      (hmakes : ev.Makes task m (.arrow f args) loc m₁) (frame : FrameId) (m' : Machine) :
      Starts ev task m (.expr f.body frame) m'
  | callback {f : Builtin} {args : List Value} {loc : Location} {m₁ : Machine}
      (hmakes : ev.Makes task m (.builtin f args) loc m₁) (callee : Value)
      (values : List Value) (loc' : Location) (m' : Machine) :
      Starts ev task m (.apply callee values loc') m'

section

variable {settings : Settings} {n : Nat} {task : Task} {m : Machine}
  {other : Task → Eval Value}

/-- An evaluator that gives the same for the pieces of a task follows there. -/
theorem followsWithin_of_agree {p : Piece} (depth : Nat)
    (hother : ∀ q : Piece, q.Within p → ∀ frame m,
      other (q.task frame) m = evaluate settings n (q.task frame) m) :
    (identical .together).FollowsWithin { settings, rounds := n, run := other }
      (.bounded settings n) depth p := by
  intro q hq
  have hpiece := (identical.followsAll_self settings n depth).piece q
  cases q with
  | expr e =>
    intro frame
    have hsame : Evaluator.expr { settings, rounds := n, run := other } e frame =
        (Evaluator.bounded settings n).expr e frame := funext fun m => hother _ hq frame m
    rw [hsame]
    exact hpiece frame
  | stmt s =>
    intro frame
    have hsame : Evaluator.stmt { settings, rounds := n, run := other } s frame =
        (Evaluator.bounded settings n).stmt s frame := funext fun m => hother _ hq frame m
    rw [hsame]
    exact hpiece frame

theorem block_eq_of_agree {ev ev' : Evaluator} {b : Block} {frame : FrameId}
    (h : ∀ s ∈ b.statements, ev'.stmt s frame = ev.stmt s frame) :
    ev'.block b frame = ev.block b frame := by
  unfold Evaluator.block
  generalize b.statements = statements at h ⊢
  generalize Value.null = last
  induction statements generalizing last with
  | nil => rfl
  | cons s statements ih =>
    rw [Evaluator.statementsFrom, Evaluator.statementsFrom, h s List.mem_cons_self]
    exact congrArg _ (funext fun v =>
      ih (fun s' hs' => h s' (List.mem_cons_of_mem s hs')) v)

/-- What is called does not depend on anything but the pieces of the call. -/
theorem called?_of_agree (hother : ∀ task' m',
      (Evaluator.bounded settings n).Starts task m task' m' →
        other task' m' = evaluate settings n task' m')
    {loc : Location} {found : Eval Call}
    (hcalled : (Evaluator.bounded settings n).called? task = some (loc, found)) :
    ∃ found', Evaluator.called? { settings, rounds := n, run := other } task =
      some (loc, found') ∧ found' m = found m := by
  unfold Evaluator.called? at hcalled
  split at hcalled
  · cases hcalled
    exact ⟨_, rfl, rfl⟩
  · next callee args loc frame =>
    cases hcalled
    have hwithin := followsWithin_of_agree (p := .expr (.call callee args loc)) m.callDepth
      fun q hq frame' m' => hother _ m' (.within rfl hq frame' m')
    exact ⟨_, rfl, Eval.bind_congr_left (identical.eq_of_matches_together
      (identical.callParts_matches_of_within loc hwithin frame))⟩
  · cases hcalled

/-- A call that has been found does not depend on anything but what it starts. -/
theorem perform_of_agree (hother : ∀ task' m',
      (Evaluator.bounded settings n).Starts task m task' m' →
        other task' m' = evaluate settings n task' m')
    {call : Call} {loc : Location} {m₁ : Machine}
    (hmakes : (Evaluator.bounded settings n).Makes task m call loc m₁) :
    Evaluator.perform { settings, rounds := n, run := other } loc call m₁ =
      (Evaluator.bounded settings n).perform loc call m₁ := by
  cases call with
  | function f args receiver =>
    refine Evaluator.callFunction_congr rfl fun start henters => ?_
    refine congrFun (block_eq_of_agree fun s hs => funext fun m' => ?_) start
    exact hother _ m' (.body (Evaluator.callPath_of_makes hmakes) henters hs m')
  | arrow f args =>
    have hbody : ∀ frame, Evaluator.expr { settings, rounds := n, run := other } f.body frame =
        (Evaluator.bounded settings n).expr f.body frame :=
      fun frame => funext fun m' => hother _ m' (.arrow hmakes frame m')
    change Evaluator.callArrow _ f args loc m₁ = Evaluator.callArrow _ f args loc m₁
    unfold Evaluator.callArrow
    simp only [hbody]
    rfl
  | builtin f args =>
    have happly : (identical .together).FollowsApply
        { settings, rounds := n, run := other } (.bounded settings n) m₁.callDepth 3 := by
      intro callee callee' values values' loc' hcallee hvalues hcount
      have hsame : Evaluator.apply { settings, rounds := n, run := other } callee values loc' =
          (Evaluator.bounded settings n).apply callee values loc' :=
        funext fun m' => hother _ m' (.callback hmakes callee values loc' m')
      rw [hsame]
      exact (identical.followsAll_self settings n m₁.callDepth).apply 3 loc' hcallee hvalues
        hcount
    exact identical.eq_of_matches_together (Follows.callBuiltin happly f
      (Nat.min_le_right _ _) (identical.related_self args) loc m₁ m₁
      (identical.agree_self m₁))
  | missing problem => rfl

theorem restsOn_starts (settings : Settings) (n : Nat) (task : Task) (m : Machine) :
    RestsOn ((Evaluator.bounded settings n).Starts task m) (evaluate settings n)
      (settings.outcome n task m) := by
  intro other hother
  change Evaluator.evalTask { settings, rounds := n, run := other } task m =
    (Evaluator.bounded settings n).evalTask task m
  cases hcalled : (Evaluator.bounded settings n).called? task with
  | none =>
    have hwithin : ∀ p, task.piece? = some p → (identical .together).FollowsWithin
        { settings, rounds := n, run := other } (.bounded settings n) m.callDepth p :=
      fun p hp => followsWithin_of_agree m.callDepth
        fun q hq frame m' => hother _ m' (.within hp hq frame m')
    exact identical.eq_of_matches_together (identical.evalTask_matches_of_within (by nofun)
      (identical.alike rfl (Or.inl rfl)) hwithin hcalled)
  | some step =>
    obtain ⟨loc, found⟩ := step
    obtain ⟨found', hcalled', hsame⟩ := called?_of_agree hother hcalled
    rw [Evaluator.evalTask_eq_of_called? hcalled, Evaluator.evalTask_eq_of_called? hcalled']
    cases hfound : found m with
    | done call m₁ =>
      rw [Eval.bind_of_done hfound, Eval.bind_of_done (hsame.trans hfound)]
      exact perform_of_agree hother ⟨found, hcalled, hfound⟩
    | left exit m₁ => rw [Eval.bind_of_left hfound, Eval.bind_of_left (hsame.trans hfound)]
    | exhausted =>
      rw [Eval.bind_of_exhausted hfound, Eval.bind_of_exhausted (hsame.trans hfound)]

end

/-! ### Signatures -/

/-- Functions are true to their signatures in whatever way they are called.  What each way
comes down to is the call of a function, and there are no other ways.  A task starts the
statements of a function's body only if it is such a call and gets to the body: it ends in
the same way whatever any other code might give.  A body starts only with as many arguments
as there are parameters, each of the type that its parameter asks for, on the heap with
which the body starts, and otherwise the call fails.  What a call gives is what the function
says it gives. -/
theorem functions_honour_signatures (settings : Settings) (n : Nat) :
    let ev := Evaluator.bounded settings n
    (∀ task m f args receiver loc m₁, ev.Makes task m (.function f args receiver) loc m₁ ↔
      ev.CallPath task m f args receiver loc m₁) ∧
    (∀ task m, RestsOn (ev.Starts task m) (evaluate settings n)
      (settings.outcome n task m)) ∧
    (∀ (f : Closure) args receiver loc m start,
      f.Enters settings.callLimit args receiver loc m start →
      start.heap = m.heap ∧ f.Accepts start.heap args) ∧
    ∀ task m f args receiver loc m₁, ev.CallPath task m f args receiver loc m₁ →
      (¬ f.Accepts m₁.heap args → ∃ problem loc' m',
        evaluate settings (n + 1) task m = .left (.failed problem loc') m') ∧
      ∀ v m', evaluate settings (n + 1) task m = .done v m' →
        f.Accepts m₁.heap args ∧ f.Honours m'.heap v := by
  intro ev
  refine ⟨fun task m f args receiver loc m₁ =>
      ⟨Evaluator.callPath_of_makes, Evaluator.CallPath.makes⟩,
    fun task m => restsOn_starts settings n task m, ?_, ?_⟩
  · intro f args receiver loc m start henters
    obtain ⟨hheap, haccepts⟩ := henters.accepts
    exact ⟨hheap, hheap ▸ haccepts⟩
  · intro task m f args receiver loc m₁ hpath
    have hrun : evaluate settings (n + 1) task m =
        ev.callFunction f args receiver loc m₁ := ev.evalTask_of_makes hpath.makes
    rw [hrun]
    refine ⟨fun hrefused => ev.callFunction_of_not_accepts hrefused, fun v m' hdone =>
      ⟨?_, ev.callFunction_honours hdone⟩⟩
    by_contra hrefused
    obtain ⟨problem, loc', m'', hfailed⟩ : ∃ problem loc' m'',
        ev.callFunction f args receiver loc m₁ = .left (.failed problem loc') m'' :=
      ev.callFunction_of_not_accepts hrefused
    cases hfailed.symm.trans hdone

/-- `define f(x: int) -> int { return x }` -/
def sameInteger : Closure :=
  ⟨0, { name := some "f"
        params := .typed [⟨⟨"x", default⟩, .named "int" default⟩]
        returns := [.named "int" default]
        body := ⟨[.ret (some (.name ⟨"x", default⟩)) default], default⟩
        loc := default }, Arena.root⟩

/-- The function gives an integer for an integer, and it is not started for a text. -/
theorem functions_honour_signatures_sameInteger :
    (∃ m', evaluate ⟨1, .empty⟩ 4 (.apply (.function sameInteger) [.int 7] default) {} =
        .done (.int 7) m' ∧ sameInteger.Honours m'.heap (.int 7)) ∧
    ∃ problem loc' m', evaluate ⟨1, .empty⟩ 4
      (.apply (.function sameInteger) [.str "seven"] default) {} =
        .left (.failed problem loc') m' := by
  obtain ⟨-, -, -, hcalls⟩ := functions_honour_signatures ⟨1, .empty⟩ 3
  constructor
  · obtain ⟨m', hdone⟩ : ∃ m', evaluate ⟨1, .empty⟩ 4
        (.apply (.function sameInteger) [.int 7] default) {} = .done (.int 7) m' := ⟨_, rfl⟩
    exact ⟨m', hdone, ((hcalls _ {} sameInteger [.int 7] none default {} .callback).2 _ m'
      hdone).2⟩
  · refine (hcalls _ {} sameInteger [.str "seven"] none default {} .callback).1 fun haccepts =>
      ?_
    cases haccepts.types _ rfl with
    | cons htype _ => exact absurd htype (by decide)

end Script
