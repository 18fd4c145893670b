import Script.Proofs.Eval.CallLimit
import Script.Proofs.Eval.Locals

/-!
# Constants

A constant stays as it is while its frame can be reached.  What declares it again, or
assigns to it, or steps it, computes the value that it would give it and then fails.

There is one gap.  The statements that define a type or take over the names of a
module bind these names in their frame without asking whether they are constants
there.  So a constant is safe from all that is evaluated but such statements in its
own frame.
-/

namespace Script

open Scope (Arena Binding FrameId find? SameConstants SameConstantsBut)
open Machine (Licensed Region)

/-- The names that a statement binds in its frame, whatever they are bound to. -/
def Stmt.overwritten (library : Library) : Stmt → List String
  | .struct name _ _ => [name.text]
  | .enum name _ _ => [name.text]
  | .includes modules _ _ =>
    modules.flatMap fun name => ((library name).getD []).map (·.1)
  | _ => []

/-- The task is a statement that overwrites a name of a frame. -/
def Task.Overwrites (library : Library) : Task → FrameId → String → Prop
  | .stmt s frame, id, name => id = frame ∧ name ∈ s.overwritten library
  | _, _, _ => False

namespace Scope.Arena

variable {α : Type} {a b c : Arena α} {but but' : FrameId → String → Prop}

/-- The constants of the frames that can be reached stay as they are, except for some
names. -/
abbrev KeepsConstants (but : FrameId → String → Prop) (a b : Arena α) : Prop :=
  Carries (fun id => SameConstantsBut (but id)) a b

theorem keepsConstants_refl (a : Arena α) : KeepsConstants but a a :=
  .refl (fun _ bindings => (SameConstants.refl bindings).but) a

theorem Carries.thenConstants (hab : KeepsConstants but a b)
    (hbc : KeepsConstants but' b c) (hbut : ∀ id name, but' id name → but id name) :
    KeepsConstants but a c :=
  hab.trans (fun id _ _ _ _ hfirst hsecond => hfirst.trans (hsecond.mono (hbut id))) hbc

end Scope.Arena

namespace Machine

/-- Every frame that could be reached can still be reached, and its constants are what
they were, except for some names. -/
def ConstantsStay (but : FrameId → String → Prop) (m m' : Machine) : Prop :=
  ∀ frame old, m.scopes.Reachable frame → m.scopes.frame? frame = some old →
    m'.scopes.Reachable frame ∧
      ∃ new, m'.scopes.frame? frame = some new ∧
        ∀ name b, find? name old.bindings = some b → b.constant = true →
          ¬ but frame name → find? name new.bindings = some b

/-- The second machine has what the holds of the first one had, and more: its arena is
in order, no owner of a hold has gone, and constants are what they were, except for some
names. -/
structure HasKept (but : FrameId → String → Prop) (m m' : Machine) : Prop where
  tidy : m'.scopes.Tidy
  owned : m'.scopes.Owned m.scopes.holds
  keeps : Arena.KeepsConstants but m.scopes (m'.scopes.owning m.scopes.holds)

theorem hasKept_self {but : FrameId → String → Prop} {m : Machine}
    (htidy : m.scopes.Tidy) : m.HasKept but m where
  tidy := htidy
  owned := Arena.owned_self m.scopes
  keeps := Arena.keepsConstants_refl m.scopes

theorem HasKept.constantsStay {but : FrameId → String → Prop} {m m' : Machine}
    (hkept : m.HasKept but m') : m.ConstantsStay but m' := by
  intro frame old hframe hold
  obtain ⟨new, hnew, -, hconstants⟩ := hkept.keeps.frame frame old hframe hold
  exact ⟨(hkept.keeps.reachable hframe).of_owning hkept.owned, new, hnew, hconstants⟩

end Machine

/-! ### Statements that overwrite names -/

namespace Eval

variable {α β : Type} {frame : FrameId} {names : List String}

/-- The computation overwrites none but the given names of the frame. -/
def OverwritesOnly (frame : FrameId) (names : List String) (c : Eval α) : Prop :=
  ∀ m m', (c m).machine? = some m' → m.scopes.Tidy →
    m'.scopes.Tidy ∧ m'.scopes.holds = m.scopes.holds ∧
      ∀ kept, Arena.KeepsConstants (fun id name => id = frame ∧ name ∈ names)
        (m.scopes.owning kept) (m'.scopes.owning kept)

theorem overwritesOnly_of_scopes_eq {c : Eval α}
    (hsame : ∀ m m', (c m).machine? = some m' → m'.scopes = m.scopes) :
    OverwritesOnly frame names c := by
  intro m m' hend htidy
  rw [hsame m m' hend]
  exact ⟨htidy, rfl, fun _ => Arena.keepsConstants_refl _⟩

theorem overwritesOnly_pure (value : α) :
    OverwritesOnly frame names (Pure.pure value : Eval α) :=
  overwritesOnly_of_scopes_eq fun _ _ hend => by rw [← Option.some.inj hend]

theorem overwritesOnly_fail (problem : Problem) (loc : Location) :
    OverwritesOnly frame names (fail problem loc : Eval α) :=
  overwritesOnly_of_scopes_eq fun _ _ hend => by rw [← Option.some.inj hend]

theorem overwritesOnly_onHeap (f : Heap → α × Heap) :
    OverwritesOnly frame names (onHeap f) :=
  overwritesOnly_of_scopes_eq fun _ _ hend => by rw [← Option.some.inj hend]

theorem overwritesOnly_define {name : String} (hname : name ∈ names) (value : Value) :
    OverwritesOnly frame names (define frame name value) := by
  intro m m' hend htidy
  rw [← Option.some.inj hend]
  refine ⟨htidy.quiet (Arena.quiet_bind frame _), rfl, fun _ => ?_⟩
  refine Arena.carries_modifyBindings
    (fun _ bindings => (SameConstants.refl bindings).but) frame _ fun old _ => ?_
  exact Scope.sameConstantsBut_put ⟨rfl, hname⟩ old.bindings

theorem OverwritesOnly.bind {c : Eval α} {f : α → Eval β}
    (hc : OverwritesOnly frame names c)
    (hf : ∀ value, OverwritesOnly frame names (f value)) :
    OverwritesOnly frame names (c >>= f) := by
  intro m m' hend htidy
  rcases machine?_bind hend with hfirst | ⟨value, between, hfirst, hsecond⟩
  · exact hc m m' hfirst htidy
  · obtain ⟨htidy', hholds, hkeeps⟩ := hc m between hfirst htidy
    obtain ⟨htidy'', hholds', hkeeps'⟩ := hf value between m' hsecond htidy'
    exact ⟨htidy'', hholds'.trans hholds, fun kept =>
      (hkeeps kept).thenConstants (hkeeps' kept) fun _ _ hbut => hbut⟩

theorem overwritesOnly_defineAll {bindings : List (String × Value)}
    (hnames : ∀ b ∈ bindings, b.1 ∈ names) :
    OverwritesOnly frame names (defineAll frame bindings) := by
  induction bindings with
  | nil => exact overwritesOnly_pure ()
  | cons b bindings ih =>
    refine OverwritesOnly.bind (overwritesOnly_define (hnames b (by simp)) b.2) fun _ => ?_
    exact ih fun b hb => hnames b (List.mem_cons_of_mem _ hb)

theorem overwritesOnly_includeModules (library : Library) (loc : Location)
    {modules : List String}
    (hnames : ∀ name ∈ modules, ∀ b ∈ (library name).getD [], b.1 ∈ names) :
    OverwritesOnly frame names (includeModules library loc frame modules) := by
  induction modules with
  | nil => exact overwritesOnly_pure _
  | cons name modules ih =>
    unfold includeModules
    split
    · next bindings hbindings =>
      refine OverwritesOnly.bind (overwritesOnly_defineAll fun b hb => ?_) fun _ => ?_
      · refine hnames name (by simp) b ?_
        rw [hbindings]
        exact hb
      · exact ih fun name hname => hnames name (List.mem_cons_of_mem _ hname)
    · exact overwritesOnly_fail _ loc

end Eval

/-- A task that may set up a frame that is there already is a statement that
overwrites names of it, and it has no parts. -/
theorem Task.overwrites_of_licence {task : Task} {frame : FrameId}
    (hlicence : task.licence = .setUp frame) (ev : Evaluator) :
    ∃ names, task.Overwrites ev.settings.library =
        (fun id name => id = frame ∧ name ∈ names) ∧
      Eval.OverwritesOnly frame names (ev.evalTask task) ∧
      ∀ run, (ev.asking run).evalTask task = ev.evalTask task := by
  cases task with
  | expr e frame => cases hlicence
  | apply callee args loc => cases hlicence
  | stmt s frame =>
    cases s with
    | struct name fields loc =>
      cases hlicence
      refine ⟨[name.text], rfl, ?_, fun _ => rfl⟩
      refine Eval.OverwritesOnly.bind (Eval.overwritesOnly_onHeap _) fun v => ?_
      exact Eval.OverwritesOnly.bind (Eval.overwritesOnly_define (by simp) v)
        fun _ => Eval.overwritesOnly_pure _
    | enum name variants loc =>
      cases hlicence
      refine ⟨[name.text], rfl, ?_, fun _ => rfl⟩
      refine Eval.OverwritesOnly.bind (Eval.overwritesOnly_onHeap _) fun id => ?_
      exact Eval.OverwritesOnly.bind (Eval.overwritesOnly_define (by simp) _)
        fun _ => Eval.overwritesOnly_pure _
    | includes modules grouped loc =>
      cases hlicence
      refine ⟨_, rfl, Eval.overwritesOnly_includeModules _ loc ?_, fun _ => rfl⟩
      exact fun name hname b hb => List.mem_flatMap.mpr
        ⟨name, hname, List.mem_map_of_mem hb⟩
    | _ => cases hlicence

section

variable {settings : Settings}

/-- Whatever is evaluated, constants stay, except for the names that it overwrites
itself. -/
theorem evaluate_keepsConstants (n : Nat) (task : Task) {kept : Array Nat}
    {m m' : Machine} (htidy : m.scopes.Tidy) (howned : m.scopes.Owned kept)
    (hend : (evaluate settings n task m).machine? = some m') :
    m'.scopes.Tidy ∧ m'.scopes.Owned kept ∧
      Arena.KeepsConstants (task.Overwrites settings.library)
        (m.scopes.owning kept) (m'.scopes.owning kept) := by
  by_cases hlicence : ∃ frame, task.licence = .setUp frame
  · obtain ⟨frame, hlicence⟩ := hlicence
    cases n with
    | zero => cases hend
    | succ n =>
      obtain ⟨names, heq, honly, -⟩ :=
        Task.overwrites_of_licence hlicence (Evaluator.bounded settings n)
      obtain ⟨htidy', hholds, hkeeps⟩ := honly m m' hend htidy
      rw [show task.Overwrites settings.library = _ from heq]
      exact ⟨htidy', howned.of_holds_eq hholds, hkeeps kept⟩
  · obtain ⟨htidy', howned', hcarries⟩ :=
      (evaluate_licensed settings n task hend).carries htidy howned
    refine ⟨htidy', howned', hcarries.mono fun id _ _ _ hallows => ?_⟩
    exact (hallows.2 fun heq => hlicence ⟨id, heq⟩).but

/-- What is evaluated later keeps what is still there. -/
theorem Machine.HasKept.evaluate {but : FrameId → String → Prop} {m₀ m m' : Machine}
    (hkept : m₀.HasKept but m) (n : Nat) (task : Task)
    (hbut : ∀ id name, task.Overwrites settings.library id name → but id name)
    (hend : (Script.evaluate settings n task m).machine? = some m') :
    m₀.HasKept but m' := by
  obtain ⟨htidy, howned, hkeeps⟩ :=
    evaluate_keepsConstants n task hkept.tidy hkept.owned hend
  exact ⟨htidy, howned, hkept.keeps.thenConstants hkeeps hbut⟩

/-! ### Constants at every point of a run -/

/-- The machines on which the constants of a machine stay, with no licence to set up
one of its frames. -/
def Machine.keepingConstants (m₀ : Machine) (but : FrameId → String → Prop)
    (limit : Nat) : Region limit m₀.scopes.holds where
  Holds := fun l m => m₀.HasKept but m ∧
    ∀ frame, l = .setUp frame → ¬ m₀.scopes.Reachable frame
  stays := by
    rintro l m m' ⟨hkept, hsetUp⟩ hlicensed
    obtain ⟨htidy, howned, hcarries⟩ := hlicensed.carries hkept.tidy hkept.owned
    refine ⟨⟨htidy, howned, hkept.keeps.trans (fun id _ _ _ hid hfirst hallows => ?_)
      hcarries⟩, hsetUp⟩
    exact hfirst.trans (hallows.2 fun heq => hsetUp id heq hid).but
  narrows := by
    rintro l l' m hwithin ⟨hkept, hsetUp⟩
    refine ⟨hkept, ?_⟩
    rintro frame rfl
    cases hwithin
    exact hsetUp frame rfl
  opens := by
    rintro l m outer ⟨hkept, -⟩
    have hchild : Arena.KeepsConstants but (m.scopes.owning m₀.scopes.holds)
        ((m.scopes.owning m₀.scopes.holds).child outer).2 :=
      (hkept.tidy.owning _).carries_child
        (fun _ bindings => (SameConstants.refl bindings).but) outer
    rw [Arena.child_owning] at hchild
    refine ⟨⟨hkept.tidy.child outer, hkept.owned.child outer,
      hkept.keeps.thenConstants hchild fun _ _ hbut => hbut⟩, ?_⟩
    intro frame heq hframe
    have hsome : (m.scopes.frame? frame).isSome := (hkept.keeps.reachable hframe).isSome
    rw [← Licence.setUp.inj heq, hkept.tidy.frame?_child_slot] at hsome
    cases hsome
  calls := fun ⟨⟨htidy, howned, hkeeps⟩, hsetUp⟩ => ⟨⟨htidy, howned, hkeeps⟩, hsetUp⟩
  loops := fun ⟨⟨htidy, howned, hkeeps⟩, hsetUp⟩ => ⟨⟨htidy, howned, hkeeps⟩, hsetUp⟩

/-- At the start of a task the constants of an earlier machine are what they were, and
the task keeps those that there are by then, except for the names that it overwrites
itself. -/
def ConstantsHold (library : Library) (m₀ : Machine) (but : FrameId → String → Prop)
    (task : Task) (m : Machine) (o : Outcome Value) : Prop :=
  m₀.ConstantsStay but m ∧
    ∀ m', o.machine? = some m' → m.ConstantsStay (task.Overwrites library) m'

theorem constantsHold_evaluate {m₀ : Machine} {but : FrameId → String → Prop} (n : Nat)
    (task : Task) {m : Machine} (hkept : m₀.HasKept but m) :
    ConstantsHold settings.library m₀ but task m (evaluate settings n task m) :=
  ⟨hkept.constantsStay, fun _ hend =>
    ((Machine.hasKept_self hkept.tidy).evaluate n task (fun _ _ hname => hname)
      hend).constantsStay⟩

theorem throughout_constantsHold {m₀ : Machine} {but : FrameId → String → Prop}
    (n : Nat) (task : Task) {m : Machine} (hkept : m₀.HasKept but m) :
    Throughout settings (ConstantsHold settings.library m₀ but) n task m := by
  induction n generalizing task m with
  | zero => exact ⟨hkept.constantsStay, nofun⟩
  | succ n ih =>
    refine ⟨constantsHold_evaluate (n + 1) task hkept, fun other hother => ?_⟩
    by_cases hlicence : ∃ frame, task.licence = .setUp frame
    · obtain ⟨frame, hlicence⟩ := hlicence
      obtain ⟨-, -, -, hparts⟩ :=
        Task.overwrites_of_licence hlicence (Evaluator.bounded settings n)
      exact congrFun (hparts other) m
    · have hev : (Evaluator.bounded settings n).Abides (m₀.keepingConstants but _)
          other := fun part p hp =>
        ⟨hother part p (ih part hp.1),
          fun _ hend => evaluate_licensed settings n part hend⟩
      exact (hev.evalTask task m ⟨hkept,
        fun frame heq => absurd ⟨frame, heq⟩ hlicence⟩).1

/-- The statements of a block or a program overwrite a name of their frame. -/
def Overwritten (library : Library) (statements : List Stmt) (frame : FrameId)
    (id : FrameId) (name : String) : Prop :=
  ∃ s ∈ statements, (Task.stmt s frame).Overwrites library id name

theorem restsOn_statementsFrom {m₀ : Machine} {but : FrameId → String → Prop} (n : Nat)
    (frame : FrameId) {statements : List Stmt} (last : Value) {m : Machine}
    (hkept : m₀.HasKept but m)
    (hbut : ∀ id name, Overwritten settings.library statements frame id name →
      but id name) :
    RestsOn (Throughout settings (ConstantsHold settings.library m₀ but) n)
      (evaluate settings n) fun run =>
        Evaluator.statementsFrom { settings, rounds := n, run } frame statements last
          m := by
  intro other hother
  induction statements generalizing last m with
  | nil => rfl
  | cons s statements ih =>
    have hsame : other (.stmt s frame) m = evaluate settings n (.stmt s frame) m :=
      hother _ m (throughout_constantsHold n _ hkept)
    change Eval.bind (other (.stmt s frame)) _ m =
      Eval.bind (evaluate settings n (.stmt s frame)) _ m
    unfold Eval.bind
    rw [hsame]
    cases hend : evaluate settings n (.stmt s frame) m with
    | done v m' =>
      have hfirst : (evaluate settings n (.stmt s frame) m).machine? = some m' :=
        congrArg Outcome.machine? hend
      refine ih v (hkept.evaluate n _ (fun id name hname => ?_) hfirst) ?_
      · exact hbut id name ⟨s, by simp, hname⟩
      · rintro id name ⟨s', hs', hname⟩
        exact hbut id name ⟨s', List.mem_cons_of_mem _ hs', hname⟩
    | left exit m' => rfl
    | exhausted => rfl

theorem Machine.HasKept.statementsFrom {m₀ : Machine} {but : FrameId → String → Prop}
    (n : Nat) (frame : FrameId) {statements : List Stmt} (last : Value) {m m' : Machine}
    (hkept : m₀.HasKept but m)
    (hbut : ∀ id name, Overwritten settings.library statements frame id name →
      but id name)
    (hend : ((Evaluator.bounded settings n).statementsFrom frame statements last
      m).machine? = some m') :
    m₀.HasKept but m' := by
  induction statements generalizing last m with
  | nil =>
    rw [← Option.some.inj hend]
    exact hkept
  | cons s statements ih =>
    have hhead : ∀ id name, (Task.stmt s frame).Overwrites settings.library id name →
        but id name := fun id name hname => hbut id name ⟨s, by simp, hname⟩
    rcases Eval.machine?_bind hend with hfirst | ⟨v, between, hfirst, hsecond⟩
    · exact hkept.evaluate n (.stmt s frame) hhead hfirst
    · refine ih v (hkept.evaluate n (.stmt s frame) hhead hfirst) ?_ hsecond
      rintro id name ⟨s', hs', hname⟩
      exact hbut id name ⟨s', List.mem_cons_of_mem _ hs', hname⟩

theorem throughoutProgram_constantsHold {m₀ : Machine}
    {but : FrameId → String → Prop} (n : Nat) (p : Program) {m : Machine}
    (hkept : m₀.HasKept but m)
    (hbut : ∀ id name, Overwritten settings.library p.statements Arena.root id name →
      but id name) :
    ThroughoutProgram settings (ConstantsHold settings.library m₀ but) n p m := by
  intro other hother
  exact Eval.bind_congr_left (Eval.complete_congr
    (restsOn_statementsFrom n Arena.root .null hkept hbut other hother))

/-! ### A constant is seen as long as nothing is bound in front of it -/

theorem Licence.Within.trans {l l' l'' : Licence} (hfirst : l.Within l')
    (hsecond : l'.Within l'') : l.Within l'' := by
  cases hfirst with
  | refl => exact hsecond
  | values => exact .values l''
  | introduceDeclare frame =>
    cases hsecond with
    | refl => exact .introduceDeclare frame
    | declareSetUp => exact .introduceSetUp frame
  | introduceSetUp frame =>
    cases hsecond
    exact .introduceSetUp frame
  | declareSetUp frame =>
    cases hsecond
    exact .declareSetUp frame

/-- What is evaluated as an expression does not change where a name is seen. -/
theorem Machine.Licensed.resolves {limit : Nat} {kept : Array Nat} {l : Licence}
    {m m' : Machine} (hlicensed : Licensed limit kept l m m') {frame : FrameId}
    (hwithin : l.Within (.introduce frame)) (htidy : m.scopes.Tidy)
    (howned : m.scopes.Owned kept) (hframe : (m.scopes.owning kept).Reachable frame)
    {name : String} {owner : FrameId} {found : Binding Value}
    (hfound : m.scopes.resolve? frame name = some (owner, found)) :
    ∃ found', m'.scopes.resolve? frame name = some (owner, found') ∧
      found'.constant = found.constant := by
  have hvalues : ∀ {m m' : Machine} {found : Binding Value},
      Arena.Carries Licence.values.Allows (m.scopes.owning kept)
        (m'.scopes.owning kept) →
      (m.scopes.owning kept).Reachable frame →
      m.scopes.resolve? frame name = some (owner, found) →
      ∃ found', m'.scopes.resolve? frame name = some (owner, found') ∧
        found'.constant = found.constant := by
    intro m m' found hcarries hframe hfound
    rw [← Arena.resolve?_owning kept] at hfound
    obtain ⟨found', hfound', hconstant⟩ := hcarries.resolveWithin
      (fun _ _ _ hallows => hallows.1 nofun) hcarries.size_le hframe hfound
    exact ⟨found', (Arena.resolve?_owning kept _ _).symm.trans hfound', hconstant⟩
  induction hlicensed generalizing found with
  | rest l m => exact ⟨found, hfound, rfl⟩
  | silent l hsilent =>
    rw [hsilent.scopes_eq]
    exact ⟨found, hfound, rfl⟩
  | pin l m other =>
    exact hvalues (Arena.carries_pin (Licence.allows_refl _) other) hframe hfound
  | drop l m hold hmore =>
    refine ⟨found, ?_, rfl⟩
    rw [← hfound]
    exact Arena.resolve?_owning (m.scopes.drop hold).holds frame name
  | update l m other name' value hvariable =>
    exact hvalues (Arena.carries_update _ value hvariable) hframe hfound
  | introduce m other name' value hunbound =>
    cases hwithin
    refine ⟨found, ?_, rfl⟩
    rw [← hfound]
    refine Arena.resolve?_bind_of_ne ?_ frame frame
    rintro rfl
    rw [hunbound] at hfound
    cases hfound
  | declare => cases hwithin
  | setUp => cases hwithin
  | widen hinner _ ih => exact ih (hinner.trans hwithin) htidy howned hframe hfound
  | seq hfirst _ ihfirst ihsecond =>
    obtain ⟨htidy', howned', hcarries⟩ := hfirst.carries htidy howned
    obtain ⟨between, hbetween, hconstant⟩ := ihfirst hwithin htidy howned hframe hfound
    obtain ⟨found', hfound', hconstant'⟩ :=
      ihsecond hwithin htidy' howned' (hcarries.reachable hframe) hbetween
    exact ⟨found', hfound', hconstant'.trans hconstant⟩
  | frame l outer hinner =>
    obtain ⟨-, -, hcarries⟩ :=
      (Licensed.frame .values outer hinner).carries htidy howned
    exact hvalues hcarries hframe hfound
  | call _ _ ih => exact ih hwithin htidy howned hframe hfound
  | loop _ ih => exact ih hwithin htidy howned hframe hfound

/-! ### What gives a name a value -/

/-- The forms that give a name a value, by what stands around the name. -/
inductive Rebinding where
  /-- `let` and `const`. -/
  | declare (constant : Bool) (type : Option TypeExpr) (value : Expr) (loc : Location)
  /-- `=` and the compound assignments. -/
  | assign (op : AssignOp) (value : Expr) (loc : Location)
  /-- A step behind the name, such as `x++`. -/
  | step (op : StepOp) (loc : Location)
  /-- A step in front of the name, such as `++x`. -/
  | stepFirst (op : StepOp) (loc : Location)

def StepOp.prefixOp : StepOp → PrefixOp
  | .increment => .increment
  | .decrement => .decrement

namespace Rebinding

/-- The whole expression or statement. -/
def task (id : Name) (frame : FrameId) : Rebinding → Task
  | declare constant type value loc => .stmt (.bind constant id type value loc) frame
  | assign op value loc => .expr (.assign (.name id) op value loc) frame
  | step op loc => .expr (.step op (.name id) loc) frame
  | stepFirst op loc => .expr (.unary op.prefixOp (.name id) loc) frame

/-- The name is a constant where it would get the value: a declaration binds it in the
frame itself, and the other forms where it is bound already. -/
def MeetsConstant (id : Name) (frame : FrameId) (m : Machine) : Rebinding → Prop
  | declare .. => m.scopes.isLocalConstant frame id.text = true
  | _ => m.scopes.isConstant frame id.text = true

end Rebinding

/-- The value that a step from the value of a name gives it. -/
def Eval.stepValue (id : Name) (frame : FrameId) (op : StepOp) : Eval Value := do
  match ← Eval.nameValue id frame with
  | .int old =>
    Eval.adviseAll (Evaluator.stepped op old).2 id.loc
    return .int (Evaluator.stepped op old).1
  | v => Eval.fail (.unknownOperator op.text v.tag) id.loc

/-- The value that a name is to get. -/
def Evaluator.newValue (ev : Evaluator) (id : Name) (frame : FrameId) :
    Rebinding → Eval Value
  | .declare _ type value loc => do
    let v ← ev.expr value frame
    match type with
    | some type => Eval.checkBinding id.text type v frame loc
    | none => pure ()
    return v
  | .assign op value loc =>
    match op.binary? with
    | none => ev.expr value frame
    | some op => do
      let current ← Eval.nameValue id frame
      let right ← ev.expr value frame
      Eval.binary op current right loc
  | .step op _ => Eval.stepValue id frame op
  | .stepFirst op _ => Eval.stepValue id frame op

theorem Eval.abides_stepValue {limit : Nat} {kept : Array Nat} {R : Region limit kept}
    {l : Licence} (id : Name) (frame : FrameId) (op : StepOp) :
    Abides R l (stepValue id frame op) (stepValue id frame op) := by
  refine Abides.bind (abides_nameValue id frame) fun v => ?_
  split
  · exact Abides.bind (abides_adviseAll _ id.loc) fun _ => abides_pure _
  · exact abides_fail _ id.loc

theorem Evaluator.Abides.newValue {ev : Evaluator} {kept : Array Nat}
    {R : Region ev.settings.callLimit kept} {run : Task → Eval Value}
    (hev : ev.Abides R run) (id : Name) (frame : FrameId) (r : Rebinding) : ev.Obeys R run (.introduce frame) (·.newValue id frame r) := by
  cases r with
  | declare constant type value loc =>
    refine Eval.Abides.bind (hev.expr value frame) fun v => ?_
    cases type with
    | none => exact Eval.abides_pure v
    | some type =>
      exact Eval.Abides.bind (Eval.abides_checkBinding _ type v frame loc) fun _ =>
        Eval.abides_pure v
  | assign op value loc =>
    cases op with
    | assign => exact hev.expr value frame
    | _ =>
      refine Eval.Abides.bind (Eval.abides_nameValue id frame) fun current => ?_
      refine Eval.Abides.bind (hev.expr value frame) fun right => ?_
      exact Eval.abides_binary _ current right loc
  | step op loc => exact Eval.abides_stepValue id frame op
  | stepFirst op loc => exact Eval.abides_stepValue id frame op

theorem newValue_licensed {n : Nat} {kept : Array Nat} {id : Name} {frame : FrameId}
    {r : Rebinding} {m m' : Machine} {v : Value}
    (hnew : (Evaluator.bounded settings n).newValue id frame r m = .done v m') :
    Licensed settings.callLimit kept (.introduce frame) m m' :=
  ((Evaluator.bounded_abides settings n kept).newValue id frame r m trivial).2 m'
    (congrArg Outcome.machine? hnew)

/-- What is evaluated to find the new value leaves the constant in sight. -/
theorem Rebinding.MeetsConstant.licensed {limit : Nat} {r : Rebinding} {id : Name}
    {frame : FrameId} {m m' : Machine} (hmeets : r.MeetsConstant id frame m)
    (hlicensed : Licensed limit m.scopes.holds (.introduce frame) m m')
    (htidy : m.scopes.Tidy) (hframe : m.scopes.Reachable frame) :
    r.MeetsConstant id frame m' := by
  have howned : m.scopes.Owned m.scopes.holds := Arena.owned_self m.scopes
  have hresolves : ∀ {owner found}, m.scopes.resolve? frame id.text = some (owner, found) →
      ∃ found', m'.scopes.resolve? frame id.text = some (owner, found') ∧
        found'.constant = found.constant := fun hfound =>
    hlicensed.resolves (.refl _) htidy howned hframe hfound
  cases r with
  | declare =>
    obtain ⟨found, hfound, hconstant⟩ := htidy.isLocalConstant_iff.mp hmeets
    obtain ⟨found', hfound', hsame⟩ := hresolves hfound
    exact (hlicensed.carries htidy howned).1.isLocalConstant_iff.mpr
      ⟨found', hfound', hsame.trans hconstant⟩
  | _ =>
    obtain ⟨owner, found, hfound, hconstant⟩ := Arena.isConstant_iff.mp hmeets
    obtain ⟨found', hfound', hsame⟩ := hresolves hfound
    exact Arena.isConstant_iff.mpr ⟨owner, found', hfound', hsame.trans hconstant⟩

theorem Eval.assignName_refused {id : Name} {frame : FrameId} {m : Machine}
    (hconstant : m.scopes.isConstant frame id.text = true) (value : Value) :
    assignName id value frame m =
      .left (.failed (.constantReassignment id.text) id.loc) m := by
  rcases assignName_cases id value frame m with ⟨-, heq⟩ | ⟨hvariable, -, -⟩ |
    ⟨hunbound, -⟩
  · exact heq
  · rw [hconstant] at hvariable
    cases hvariable
  · simp [Arena.isConstant, hunbound] at hconstant

theorem Eval.bindVariable_refused {constant : Bool} {id : Name} {value : Value}
    {loc : Location} {frame : FrameId} {m : Machine}
    (hconstant : m.scopes.isLocalConstant frame id.text = true) :
    bindVariable constant id value loc frame m =
      .left (.failed (.constantReassignment id.text) id.loc) m := by
  rcases bindVariable_cases constant id value loc frame m with ⟨-, heq⟩ |
    ⟨hvariable, -⟩
  · exact heq
  · rw [hconstant] at hvariable
    cases hvariable

/-- A step of a constant finds out the value, and then fails. -/
theorem Evaluator.step_refused {ev : Evaluator} {id : Name} {frame : FrameId}
    {op : StepOp} {m : Machine} (f : Int64 × Int64 → Eval Value)
    (hmeets : ∀ v m', Eval.stepValue id frame op m = .done v m' →
      m'.scopes.isConstant frame id.text = true) :
    (ev.step op (.name id) frame >>= f) m =
      (Eval.stepValue id frame op >>= fun _ =>
        Eval.fail (.constantReassignment id.text) id.loc) m := by
  refine (congrFun (Eval.bind_assoc (Eval.nameValue id frame) _ _) m).trans
    (Eq.trans ?_ (congrFun (Eval.bind_assoc _ _ _).symm m))
  refine Eval.bind_congr_done fun v m₁ hname => ?_
  cases v with
  | int old =>
    refine (congrFun (Eval.bind_assoc _ _ _) m₁).trans
      (Eq.trans ?_ (congrFun (Eval.bind_assoc _ _ _).symm m₁))
    refine Eval.bind_congr_done fun _ m₂ hadvised => ?_
    have hdone : Eval.stepValue id frame op m =
        .done (.int (stepped op old).1) m₂ :=
      (Eval.bind_of_done hname).trans (Eval.bind_of_done hadvised)
    exact Eval.bind_of_left
      (Eval.bind_of_left (Eval.assignName_refused (hmeets _ m₂ hdone) _))
  | _ => rfl

/-- A task that gives a constant a value finds out the value, and then fails. -/
theorem Evaluator.evalTask_refused {ev : Evaluator} {id : Name} {frame : FrameId}
    {r : Rebinding} {m : Machine}
    (hmeets : ∀ v m', ev.newValue id frame r m = .done v m' →
      r.MeetsConstant id frame m') :
    ev.evalTask (r.task id frame) m =
      (ev.newValue id frame r >>= fun _ =>
        Eval.fail (.constantReassignment id.text) id.loc) m := by
  cases r with
  | declare constant type value loc =>
    refine Eq.trans ?_ (congrFun (Eval.bind_assoc _ _ _).symm m)
    refine Eval.bind_congr_done fun v m₁ hvalue => ?_
    cases type with
    | none =>
      have hdone : ev.newValue id frame (.declare constant none value loc) m =
          .done v m₁ := Eval.bind_of_done hvalue
      exact Eval.bindVariable_refused (hmeets v m₁ hdone)
    | some type =>
      refine Eq.trans ?_ (congrFun (Eval.bind_assoc _ _ _).symm m₁)
      refine Eval.bind_congr_done fun _ m₂ hcheck => ?_
      have hdone : ev.newValue id frame (.declare constant (some type) value loc) m =
          .done v m₂ := (Eval.bind_of_done hvalue).trans (Eval.bind_of_done hcheck)
      exact Eval.bindVariable_refused (hmeets v m₂ hdone)
  | assign op value loc =>
    have hwrite : ∀ v m', m'.scopes.isConstant frame id.text = true →
        (Eval.writePlace frame v (.name id) >>= fun _ => pure v) m' =
          .left (.failed (.constantReassignment id.text) id.loc) m' :=
      fun v _ hconstant =>
        Eval.bind_of_left (Eval.assignName_refused hconstant v)
    cases op with
    | assign =>
      refine Eval.bind_congr_done (c := ev.expr value frame) fun v m₁ hvalue => ?_
      exact hwrite v m₁ (hmeets v m₁ hvalue)
    | _ =>
      refine Eq.trans ?_ (congrFun (Eval.bind_assoc _ _ _).symm m)
      refine Eval.bind_congr_done (c := Eval.nameValue id frame) fun _ m₁ hname => ?_
      refine Eq.trans ?_ (congrFun (Eval.bind_assoc _ _ _).symm m₁)
      refine Eval.bind_congr_done (c := ev.expr value frame) fun _ m₂ hvalue => ?_
      refine Eval.bind_congr_done fun v m₃ hbinary => ?_
      refine hwrite v m₃ (hmeets v m₃ ?_)
      exact (Eval.bind_of_done hname).trans
        ((Eval.bind_of_done hvalue).trans hbinary)
  | step op loc => exact Evaluator.step_refused _ hmeets
  | stepFirst op loc =>
    cases op with
    | increment => exact Evaluator.step_refused _ hmeets
    | decrement => exact Evaluator.step_refused _ hmeets

/-- A declaration that succeeds has bound its name, as a constant or not. -/
theorem declared_of_done {n : Nat} {constant : Bool} {name : Name}
    {type : Option TypeExpr} {value : Expr} {loc : Location} {frame : FrameId}
    {m m' : Machine} {v : Value} (htidy : m.scopes.Tidy)
    (hframe : m.scopes.Reachable frame)
    (hdone : evaluate settings (n + 1) (.stmt (.bind constant name type value loc) frame)
      m = .done v m') :
    ∃ f bound, m'.scopes.frame? frame = some f ∧
      find? name.text f.bindings = some ⟨name.text, bound, constant⟩ := by
  obtain ⟨given, m₁, hnew, hbind⟩ : ∃ given m₁,
      (Evaluator.bounded settings n).newValue name frame
        (.declare constant type value loc) m = .done given m₁ ∧
      Eval.bindVariable constant name given loc frame m₁ = .done v m' := by
    obtain ⟨given, m₁, hvalue, hrest⟩ := Eval.done_of_bind hdone
    cases type with
    | none => exact ⟨given, m₁, Eval.bind_of_done hvalue, hrest⟩
    | some type =>
      obtain ⟨_, m₂, hcheck, hbind⟩ := Eval.done_of_bind hrest
      exact ⟨given, m₂, (Eval.bind_of_done hvalue).trans (Eval.bind_of_done hcheck), hbind⟩
  obtain ⟨-, howned, hcarries⟩ :=
    (newValue_licensed hnew).carries htidy (Arena.owned_self m.scopes)
  obtain ⟨f, hf⟩ := Option.isSome_iff_exists.mp
    ((hcarries.reachable hframe).of_owning howned).isSome
  rcases Eval.bindVariable_cases constant name given loc frame m₁ with ⟨-, heq⟩ |
    ⟨-, noted, hsilent, heq⟩
  · rw [heq] at hbind
    cases hbind
  · rw [heq] at hbind
    cases hbind
    refine ⟨{ f with bindings := Scope.put ⟨name.text, given, constant⟩ f.bindings },
      given, ?_, Scope.find?_put_self ⟨name.text, given, constant⟩ f.bindings⟩
    change (Arena.bind noted.scopes frame _).frame? frame = _
    rw [hsilent.scopes_eq, Arena.bind, Arena.frame?_modifyFrame_self, hf]
    rfl

end

/-- At every point of every run, of a task, of the statements of a block or of a
program, the constants of the frames that could be reached when it began are what they
were, except for the names that a `struct`, `enum` or `include` among those statements
binds anew.  So are they at its end, and from the beginning of each of its parts to the
end of that part, also when it fails.  A `const` that succeeds binds a constant.  What
declares a constant again in its frame, assigns to a constant or steps it finds out the
new value and then fails, and changes nothing more. -/
theorem constants_stay (settings : Settings) (n : Nat) {m : Machine} (hm : m.Reached) :
    (∀ task, Throughout settings
      (ConstantsHold settings.library m fun _ _ => False) n task m) ∧
    (∀ statements frame last,
      RestsOn (Throughout settings (ConstantsHold settings.library m
          (Overwritten settings.library statements frame)) n) (evaluate settings n)
        (fun run => Evaluator.statementsFrom { settings, rounds := n, run } frame
          statements last m) ∧
      ∀ m', ((Evaluator.bounded settings n).statementsFrom frame statements last
          m).machine? = some m' →
        m.ConstantsStay (Overwritten settings.library statements frame) m') ∧
    (∀ p : Program, ThroughoutProgram settings (ConstantsHold settings.library m
      (Overwritten settings.library p.statements Arena.root)) n p m) ∧
    (∀ name type value loc frame v m', m.scopes.Reachable frame →
      evaluate settings (n + 1) (.stmt (.bind true name type value loc) frame) m =
        .done v m' →
      ∃ f bound, m'.scopes.frame? frame = some f ∧
        find? name.text f.bindings = some ⟨name.text, bound, true⟩) ∧
    ∀ (r : Rebinding) id frame, m.scopes.Reachable frame →
      r.MeetsConstant id frame m →
      (Problem.constantReassignment id.text).code.text = "E0047" ∧
        evaluate settings (n + 1) (r.task id frame) m =
          ((Evaluator.bounded settings n).newValue id frame r >>= fun _ =>
            Eval.fail (.constantReassignment id.text) id.loc) m := by
  refine ⟨fun task => throughout_constantsHold n task (Machine.hasKept_self hm.tidy),
    fun statements frame last => ⟨restsOn_statementsFrom n frame last
      (Machine.hasKept_self hm.tidy) fun _ _ hname => hname, fun m' hend => ?_⟩,
    fun p => throughoutProgram_constantsHold n p (Machine.hasKept_self hm.tidy)
      fun _ _ hname => hname,
    fun name type value loc frame v m' hframe hdone =>
      declared_of_done hm.tidy hframe hdone,
    fun r id frame hframe hmeets => ⟨rfl, ?_⟩⟩
  · exact ((Machine.hasKept_self hm.tidy).statementsFrom n frame last
      (fun _ _ hname => hname) hend).constantsStay
  · exact Evaluator.evalTask_refused fun v m' hnew =>
      hmeets.licensed (newValue_licensed hnew) hm.tidy hframe

/-- A machine whose root frame has a constant. -/
def constantMachine : Machine :=
  { Machine.start "" with scopes := Arena.new.setConstant Arena.root "k" (.int 1) }

/-- A constant next to it can be declared, and to assign to it fails. -/
theorem constants_stay_assignment :
    let id : Name := ⟨"k", default⟩
    (∃ f bound m', m'.scopes.frame? Arena.root = some f ∧
      evaluate ⟨1, .standard⟩ 2
        (.stmt (.bind true ⟨"j", default⟩ none (.int 2 default) default) Arena.root)
        constantMachine = .done .null m' ∧
      find? "j" f.bindings = some ⟨"j", bound, true⟩) ∧
    (Rebinding.assign .add (.int 2 default) default).MeetsConstant id Arena.root
      constantMachine ∧
    evaluate ⟨1, .standard⟩ 2
      (.expr (.assign (.name id) .add (.int 2 default) default) Arena.root)
      constantMachine =
        .left (.failed (.constantReassignment "k") default) constantMachine := by
  have hm : constantMachine.Reached := .change (.start "" _)
    (.bind _ Arena.root { name := "k", value := .int 1, constant := true })
  have hroot := hm.tidy.reachable_root
  obtain ⟨-, -, -, hbinds, hrefused⟩ := constants_stay ⟨1, .standard⟩ 1 hm
  have hmeets : (Rebinding.assign .add (.int 2 default) default).MeetsConstant
      ⟨"k", default⟩ Arena.root constantMachine := rfl
  obtain ⟨m', hdone⟩ : ∃ m', evaluate ⟨1, .standard⟩ 2
      (.stmt (.bind true ⟨"j", default⟩ none (.int 2 default) default) Arena.root)
      constantMachine = .done .null m' := ⟨_, rfl⟩
  obtain ⟨f, bound, hf, hbound⟩ := hbinds _ _ _ _ _ _ m' hroot hdone
  exact ⟨⟨f, bound, m', hf, hdone, hbound⟩, hmeets,
    (hrefused _ ⟨"k", default⟩ Arena.root hroot hmeets).2.trans rfl⟩

/-- A struct of the name of a constant takes its place. -/
theorem constants_stay_structOfConstant :
    ∃ m₁ m₂,
      (evaluate ⟨1, .standard⟩ 2
        (.stmt (.bind true ⟨"k", default⟩ none (.int 1 default) default) Arena.root)
        (Machine.start "") = .done .null m₁ ∧
      m₁.scopes.isLocalConstant Arena.root "k" = true ∧
      m₁.scopes.get? Arena.root "k" = some (.int 1)) ∧
      (evaluate ⟨1, .standard⟩ 2
        (.stmt (.struct ⟨"k", default⟩ [⟨"a", default⟩] default) Arena.root) m₁ =
          .done .null m₂ ∧
      m₂.scopes.isLocalConstant Arena.root "k" = false ∧
      (m₂.scopes.get? Arena.root "k").map Value.tag = some "STRUCT") := by
  exact ⟨_, _, ⟨rfl, rfl, rfl⟩, rfl, rfl, rfl⟩

end Script
