import Script.Eval
import Script.Proofs.Eval.Licences

/-!
# Every rule of evaluation keeps to its licence

An evaluator that keeps to the licences of what is inside an expression, a statement
or a call does so on the whole.  The rules are gone through in the order in which
they are defined.
-/

namespace Script

open Scope (Arena FrameId)
open Machine (Licensed Region Silent)
open Std (ExtTreeMap)

/-- An expression may bind names that are not bound yet, and a declaration names that
are no constants of its frame.  What defines types or takes over the names of modules
does not look whether its names are constants. -/
def Stmt.licence (frame : FrameId) : Stmt → Licence
  | .bind .. => .declare frame
  | .struct .. | .enum .. | .includes .. => .setUp frame
  | _ => .introduce frame

/-- No statement may do more than set up its frame. -/
theorem Stmt.licence_within (frame : FrameId) (s : Stmt) :
    (s.licence frame).Within (.setUp frame) := by
  cases s with
  | bind => exact .declareSetUp frame
  | struct | enum | includes => exact .refl _
  | _ => exact .introduceSetUp frame

/-- What may be done to the frames that are there when a task begins. -/
def Task.licence : Task → Licence
  | .expr _ frame => .introduce frame
  | .stmt s frame => s.licence frame
  | .apply .. => .values

namespace Eval

variable {limit : Nat} {kept : Array Nat} {R : Region limit kept} {l : Licence}

/-! ### Rules without an evaluator -/

/-- To look up a name changes nothing. -/
theorem abides_nameValue (id : Name) (frame : FrameId) :
    Abides R l (nameValue id frame) (nameValue id frame) := by
  refine abides_of_unchanged fun m m' hend => ?_
  unfold nameValue at hend
  split at hend
  · exact (Option.some.inj hend).symm
  · split at hend <;> exact (Option.some.inj hend).symm

/-- Taking an answer over makes a new array at most. -/
theorem abides_take (answer : Heap.Answer) :
    Abides R l (onHeap (·.take answer)) (onHeap (·.take answer)) := by
  cases answer with
  | value v => exact abides_of_unchanged fun _ _ hend => (Option.some.inj hend).symm
  | array items => exact abides_onHeap fun h => .newArray h items

/-- Warnings are noted, and no frame is touched. -/
theorem abides_takeComputed (c : Computed) (loc : Location) :
    Abides R l (takeComputed c loc) (takeComputed c loc) :=
  Abides.bind (abides_adviseAll _ loc) fun _ => abides_take _

theorem abides_binary (op : BinaryOp) (left right : Value) (loc : Location) :
    Abides R l (Eval.binary op left right loc) (Eval.binary op left right loc) :=
  Abides.bind (abides_askHeap loc _) fun c => abides_takeComputed c loc

theorem abides_readPlace (frame : FrameId) (place : Place) :
    Abides R l (readPlace frame place) (readPlace frame place) := by
  cases place with
  | name id => exact abides_nameValue id frame
  | element container index loc =>
    exact abides_askHeap loc (·.element container index)
  | member object name loc => exact abides_askHeap loc (·.member object name)

/-- A name is given a new value where it is bound, if it is no constant there, and
it is bound here if it is not bound anywhere. -/
theorem assignName_cases (id : Name) (value : Value) (frame : FrameId) (m : Machine) :
    (m.scopes.isConstant frame id.text = true ∧ assignName id value frame m =
      .left (.failed (.constantReassignment id.text) id.loc) m) ∨
    (m.scopes.isConstant frame id.text = false ∧
      (m.scopes.resolve? frame id.text).isSome = true ∧ assignName id value frame m =
        .done () { m with scopes := (m.scopes.update frame id.text value).2 }) ∨
    (m.scopes.resolve? frame id.text = none ∧ assignName id value frame m =
      .done () { m with scopes := m.scopes.set frame id.text value }) := by
  have hunfold : assignName id value frame m =
      (if m.scopes.isConstant frame id.text then
        fail (.constantReassignment id.text) id.loc
      else onScopes fun scopes =>
        if (scopes.update frame id.text value).1 then (scopes.update frame id.text value).2
        else (scopes.update frame id.text value).2.set frame id.text value : Eval Unit) m := rfl
  rw [hunfold]
  cases hconstant : m.scopes.isConstant frame id.text with
  | true => exact Or.inl ⟨rfl, rfl⟩
  | false =>
    refine Or.inr ?_
    cases hresolve : m.scopes.resolve? frame id.text with
    | none =>
      refine Or.inr ⟨rfl, ?_⟩
      simp [onScopes, Arena.update, hresolve]
    | some found =>
      refine Or.inl ⟨rfl, rfl, ?_⟩
      simp [onScopes, Arena.update, hresolve]

/-- The three cases are the three steps that the licence allows. -/
theorem abides_assignName (id : Name) (value : Value) (frame : FrameId) :
    Abides R (.introduce frame) (assignName id value frame)
      (assignName id value frame) := by
  refine abides_of_licensed fun m m' hend => ?_
  rcases assignName_cases id value frame m with ⟨-, heq⟩ | ⟨hvariable, -, heq⟩ |
    ⟨hunbound, heq⟩
  · rw [heq] at hend
    rw [← Option.some.inj hend]
    exact .rest _ m
  · rw [heq] at hend
    rw [← Option.some.inj hend]
    exact .update _ m frame id.text value hvariable
  · rw [heq] at hend
    rw [← Option.some.inj hend]
    exact .introduce m frame id.text value hunbound

/-- A part that is looked up is one that may be written. -/
theorem abides_storeAsked (loc : Location) {ask : Heap → Except Problem Heap.Part}
    (hask : ∀ h part, ask h = .ok part → h.Admits part) (value : Value) :
    Abides R l (do let part ← askHeap loc ask; storePart part value)
      (do let part ← askHeap loc ask; storePart part value) := by
  refine abides_of_licensed fun m m' hend => ?_
  change (Eval.bind (askHeap loc ask) _ m).machine? = some m' at hend
  unfold Eval.bind askHeap at hend
  cases hpart : ask m.heap with
  | ok part =>
    rw [hpart] at hend
    rw [← Option.some.inj hend]
    exact .silent l (.heap m (.store m.heap (hask m.heap part hpart) value))
  | error problem =>
    rw [hpart] at hend
    rw [← Option.some.inj hend]
    exact .rest l m

/-- Only the assignment to a name touches a frame. -/
theorem abides_writePlace (frame : FrameId) (value : Value) (place : Place) :
    Abides R (.introduce frame) (writePlace frame value place)
      (writePlace frame value place) := by
  cases place with
  | name id => exact abides_assignName id value frame
  | element container index loc =>
    exact abides_storeAsked loc (fun _ _ => Heap.admits_of_elementPart) value
  | member object name loc =>
    exact abides_storeAsked loc (fun _ _ => Heap.admits_of_memberPart) value

/-- An array may be changed whatever the licence is. -/
theorem abides_push (loc : Location) (args : List Value) :
    Abides R l (push loc args) (push loc args) := by
  unfold push
  split
  · exact Abides.bind (abides_onHeap fun h => .modifyArray h _ _) fun _ =>
      abides_pure _
  · exact abides_askHeap loc _
  · exact abides_askHeap loc _

theorem abides_pop (loc : Location) (args : List Value) :
    Abides R l (pop loc args) (pop loc args) := by
  unfold pop
  split
  · refine Abides.bind (abides_read _) fun last => ?_
    split
    · exact Abides.bind (abides_onHeap fun h => .modifyArray h _ _) fun _ =>
        abides_pure _
    · exact abides_fail _ loc
  · exact abides_askHeap loc _
  · exact abides_askHeap loc _

theorem abides_printLine (args : List Value) :
    Abides R l (printLine args) (printLine args) := by
  refine abides_of_silent fun m m' hend => ?_
  rw [← Option.some.inj hend]
  exact .print m _

theorem abides_input (loc : Location) (args : List Value) :
    Abides R l (input loc args) (input loc args) := by
  unfold input
  split
  · exact Abides.bind abides_readLine fun _ => abides_pure _
  · refine Abides.bind (abides_read _) fun text => ?_
    refine Abides.bind (abides_print text) fun _ => ?_
    exact Abides.bind abides_readLine fun _ => abides_pure _
  · exact abides_askHeap loc _

theorem abides_requireKnown (type : TypeExpr) (frame : FrameId) :
    Abides R l (requireKnown type frame) (requireKnown type frame) := by
  refine abides_of_unchanged fun m m' hend => ?_
  unfold requireKnown at hend
  split at hend <;> exact (Option.some.inj hend).symm

/-- A check does not bind anything. -/
theorem abides_checkBinding (name : String) (type : TypeExpr) (v : Value)
    (frame : FrameId) (loc : Location) :
    Abides R l (checkBinding name type v frame loc)
      (checkBinding name type v frame loc) := by
  refine Abides.bind (abides_requireKnown type frame) fun _ => ?_
  refine Abides.bind (abides_read _) fun problem => ?_
  split
  · exact abides_fail _ loc
  · exact abides_pure ()

theorem abides_checkArgument (function : String) (param : TypedName) (v : Value)
    (frame : FrameId) (loc : Location) :
    Abides R l (checkArgument function param v frame loc)
      (checkArgument function param v frame loc) :=
  Abides.bind (abides_requireKnown param.type frame) fun _ => abides_askHeap loc _

/-- Making a closure pins the frame around it. -/
theorem licensed_pin_newIdentity (m : Machine) (frame : FrameId) :
    Licensed limit kept l m
      { m with
        scopes := (m.scopes.pin frame).2
        heap := m.heap.newIdentity.2 } :=
  .seq (.pin l m frame) (.silent l (.heap _ (.newIdentity m.heap)))

/-- The hold that the pin gives belongs to the closure from then on. -/
theorem abides_makeFunction (f : Function) (frame : FrameId) :
    Abides R l (makeFunction f frame) (makeFunction f frame) := by
  refine abides_of_licensed fun m m' hend => ?_
  rw [← Option.some.inj hend]
  exact licensed_pin_newIdentity m frame

theorem abides_makeArrow (params : List Name) (body : Expr) (frame : FrameId) :
    Abides R l (makeArrow params body frame) (makeArrow params body frame) := by
  refine abides_of_licensed fun m m' hend => ?_
  rw [← Option.some.inj hend]
  exact licensed_pin_newIdentity m frame

/-- The frame of a call is new, so its names may be bound as they come. -/
theorem abides_bindNames (frame : FrameId) (names : List Name)
    (values : List Value) :
    Abides R (.setUp frame) (bindNames frame names values)
      (bindNames frame names values) := by
  induction names generalizing values with
  | nil => exact abides_pure ()
  | cons name names ih =>
    cases values with
    | nil => exact abides_pure ()
    | cons v values =>
      exact Abides.bind (abides_define frame name.text v) fun _ => ih values

theorem abides_bindTyped (function : String) (frame : FrameId) (loc : Location)
    (params : List TypedName) (values : List Value) :
    Abides R (.setUp frame) (bindTyped function frame loc params values)
      (bindTyped function frame loc params values) := by
  induction params generalizing values with
  | nil => exact abides_pure ()
  | cons param params ih =>
    cases values with
    | nil => exact abides_pure ()
    | cons v values =>
      refine Abides.bind (abides_checkArgument function param v frame loc) ?_
      intro _
      exact Abides.bind (abides_define frame param.name.text v) fun _ => ih values

/-- The checks of typed parameters are in between. -/
theorem abides_bindParams (function : String) (params : Params)
    (args : List Value) (frame : FrameId) (loc : Location) :
    Abides R (.setUp frame) (bindParams function params args frame loc)
      (bindParams function params args frame loc) := by
  cases params with
  | plain names => exact abides_bindNames frame names args
  | typed params => exact abides_bindTyped function frame loc params args

theorem abides_checkReturn (f : Closure) (c : Completion) (loc : Location) :
    Abides R l (checkReturn f c loc) (checkReturn f c loc) := by
  unfold checkReturn
  split
  · exact abides_pure c.value
  · exact Abides.bind (abides_requireKnown _ f.frame) fun _ => abides_askHeap loc _
  · exact abides_askHeap loc _

/-- A note is the only trace. -/
theorem silent_noteRecursion (v : Value) (loc : Location) (m : Machine) :
    ∃ noted, noteRecursion v loc m = .done () noted ∧ Silent m noted := by
  rcases noteRecursion_cases v with heq | ⟨problem, heq⟩
  · exact ⟨m, heq loc ▸ rfl, .read m m.input⟩
  · rw [heq]
    exact ⟨_, rfl, silent_advise problem loc rfl⟩

/-- What a declaration does with its value. -/
def bindVariable (constant : Bool) (name : Name) (v : Value) (loc : Location)
    (frame : FrameId) : Eval Value := do
  if ← Eval.read fun m => m.scopes.isLocalConstant frame name.text then
    Eval.fail (.constantReassignment name.text) name.loc
  else
    Eval.noteRecursion v loc
    Eval.onScopes (·.bind frame { name := name.text, value := v, constant })
    return .null

/-- A name that its frame has as a constant is not declared. -/
theorem bindVariable_of_constant {name : Name} {frame : FrameId} {m : Machine}
    (hconstant : m.scopes.isLocalConstant frame name.text = true) (constant : Bool)
    (v : Value) (loc : Location) :
    bindVariable constant name v loc frame m =
      .left (.failed (.constantReassignment name.text) name.loc) m := by
  change (if m.scopes.isLocalConstant frame name.text then _ else _ : Eval Value) m = _
  rw [if_pos hconstant]
  rfl

/-- Any other name is bound, behind a note about a function that calls itself. -/
theorem bindVariable_of_variable {name : Name} {frame : FrameId} {m noted : Machine}
    {v : Value} {loc : Location}
    (hvariable : m.scopes.isLocalConstant frame name.text = false)
    (hnoted : noteRecursion v loc m = .done () noted) (constant : Bool) :
    bindVariable constant name v loc frame m = .done .null { noted with
      scopes := noted.scopes.bind frame { name := name.text, value := v, constant } } := by
  change (if m.scopes.isLocalConstant frame name.text then _ else _ : Eval Value) m = _
  rw [if_neg (Bool.eq_false_iff.mp hvariable)]
  change Eval.bind (noteRecursion v loc) _ m = _
  rw [Eval.bind, hnoted]
  rfl

/-- A declaration does not bind a name that its frame has as a constant. -/
theorem bindVariable_cases (constant : Bool) (name : Name) (v : Value)
    (loc : Location) (frame : FrameId) (m : Machine) :
    (m.scopes.isLocalConstant frame name.text = true ∧
      bindVariable constant name v loc frame m =
        .left (.failed (.constantReassignment name.text) name.loc) m) ∨
    (m.scopes.isLocalConstant frame name.text = false ∧ ∃ noted, Silent m noted ∧
      bindVariable constant name v loc frame m = .done .null { noted with
        scopes := noted.scopes.bind frame { name := name.text, value := v, constant } }) := by
  cases hconstant : m.scopes.isLocalConstant frame name.text with
  | true => exact Or.inl ⟨rfl, bindVariable_of_constant hconstant constant v loc⟩
  | false =>
    obtain ⟨noted, hnoted, hsilent⟩ := silent_noteRecursion v loc m
    exact Or.inr ⟨rfl, noted, hsilent, bindVariable_of_variable hconstant hnoted constant⟩

/-- The case of a name that is a constant is the one in which nothing is bound. -/
theorem abides_bindVariable (constant : Bool) (name : Name) (v : Value)
    (loc : Location) (frame : FrameId) :
    Abides R (.declare frame) (bindVariable constant name v loc frame)
      (bindVariable constant name v loc frame) := by
  refine abides_of_licensed fun m m' hend => ?_
  rcases bindVariable_cases constant name v loc frame m with ⟨-, heq⟩ |
    ⟨hvariable, noted, hsilent, heq⟩
  · rw [heq] at hend
    rw [← Option.some.inj hend]
    exact .rest _ m
  · rw [heq] at hend
    rw [← Option.some.inj hend]
    refine .seq (.silent _ hsilent) (.declare noted frame _ ?_)
    rw [hsilent.scopes_eq]
    exact hvariable

/-- Here nobody asks whether the name is a constant. -/
theorem abides_declareStruct (name : Name) (fields : List Name)
    (frame : FrameId) :
    Abides R (.setUp frame) (declareStruct name fields frame)
      (declareStruct name fields frame) := by
  refine Abides.bind (abides_onHeap fun h => .newStruct h _ _) fun v => ?_
  exact Abides.bind (abides_define frame name.text v) fun _ => abides_pure _

theorem abides_declareEnum (name : Name) (variants : List VariantDecl)
    (frame : FrameId) :
    Abides R (.setUp frame) (declareEnum name variants frame)
      (declareEnum name variants frame) := by
  refine Abides.bind (abides_onHeap fun h => .newIdentity h) fun id => ?_
  exact Abides.bind (abides_define frame name.text _) fun _ => abides_pure _

/-- The name of the struct is looked up, not bound. -/
theorem abides_declareMethod (struct : Name) (f : Function) (frame : FrameId) :
    Abides R l (declareMethod struct f frame) (declareMethod struct f frame) := by
  refine Abides.bind (abides_lookup? frame struct.text) fun found => ?_
  split
  · refine Abides.bind (abides_makeFunction f frame) fun closure => ?_
    exact Abides.bind (abides_onHeap fun h => .addMethod h _ _ _) fun _ =>
      abides_pure _
  · exact abides_fail _ struct.loc

theorem abides_defineAll (frame : FrameId) (bindings : List (String × Value)) :
    Abides R (.setUp frame) (defineAll frame bindings) (defineAll frame bindings) := by
  induction bindings with
  | nil => exact abides_pure ()
  | cons b bindings ih => exact Abides.bind (abides_define frame _ _) fun _ => ih

/-- The names of a module are bound like those of types. -/
theorem abides_includeModules (library : Library) (loc : Location)
    (frame : FrameId) (modules : List String) :
    Abides R (.setUp frame) (includeModules library loc frame modules)
      (includeModules library loc frame modules) := by
  induction modules with
  | nil => exact abides_pure _
  | cons name modules ih =>
    unfold includeModules
    split
    · exact Abides.bind (abides_defineAll frame _) fun _ => ih
    · exact abides_fail _ loc

end Eval

/-- The names of a loop are bound in the frame of a round. -/
theorem LoopNames.abides_bind {limit : Nat} {kept : Array Nat} {R : Region limit kept}
    (names : LoopNames)
    (frame : FrameId) (keyed : Bool) (key value : Value) :
    Eval.Abides R (.setUp frame) (names.bind frame keyed key value)
      (names.bind frame keyed key value) := by
  cases names with
  | one name => exact Eval.abides_define frame name _
  | two index item =>
    exact Eval.Abides.bind (Eval.abides_define frame index key) fun _ =>
      Eval.abides_define frame item value

namespace Evaluator

open Eval

/-- The evaluator, with its parts evaluated by `run`. -/
abbrev asking (ev : Evaluator) (run : Task → Eval Value) : Evaluator :=
  { ev with run }

/-- A rule keeps to a licence, and does the same when `run` evaluates its parts. -/
abbrev Obeys {α : Type} {kept : Array Nat} (ev : Evaluator)
    (R : Region ev.settings.callLimit kept)
    (run : Task → Eval Value) (l : Licence) (rule : Evaluator → Eval α) : Prop :=
  Eval.Abides R l (rule ev) (rule (ev.asking run))

/-- Whatever the evaluator is asked, it keeps to the licence of the task, and does
what `run` does. -/
def Abides {kept : Array Nat} (ev : Evaluator) (R : Region ev.settings.callLimit kept)
    (run : Task → Eval Value) : Prop :=
  ∀ task, Eval.Abides R task.licence (ev.run task) (run task)

variable {ev : Evaluator} {kept : Array Nat} {R : Region ev.settings.callLimit kept}
  {run : Task → Eval Value} {l : Licence}

/-! ### Parts of expressions and blocks -/

/-- An expression may introduce names in the frame that it is evaluated in. -/
theorem Abides.expr (hev : ev.Abides R run) (e : Expr) (frame : FrameId) :
    ev.Obeys R run (.introduce frame) (·.expr e frame) :=
  hev (.expr e frame)

theorem Abides.stmt (hev : ev.Abides R run) (s : Stmt) (frame : FrameId) :
    ev.Obeys R run (s.licence frame) (·.stmt s frame) :=
  hev (.stmt s frame)

/-- A call sees frames of its own and those around its closure. -/
theorem Abides.apply (hev : ev.Abides R run) (callee : Value) (args : List Value)
    (loc : Location) :
    ev.Obeys R run .values (·.apply callee args loc) :=
  hev (.apply callee args loc)

theorem Abides.holds (hev : ev.Abides R run) (e : Expr) (frame : FrameId) :
    ev.Obeys R run (.introduce frame) (·.holds e frame) :=
  Eval.Abides.bind (hev.expr e frame) fun _ => abides_read _

theorem Abides.optional (hev : ev.Abides R run) (frame : FrameId) (e : Option Expr) :
    ev.Obeys R run (.introduce frame) (·.optional frame e) := by
  cases e with
  | none => exact abides_pure none
  | some e => exact Eval.Abides.bind (hev.expr e frame) fun _ => abides_pure _

/-- The licences of the statements differ, and all are within that of the whole. -/
theorem Abides.statementsFrom (hev : ev.Abides R run) (frame : FrameId)
    (statements : List Stmt) (last : Value) :
    ev.Obeys R run (.setUp frame) (·.statementsFrom frame statements last) := by
  induction statements generalizing last with
  | nil => exact abides_pure last
  | cons s statements ih =>
    exact Eval.Abides.bind ((hev.stmt s frame).widen (s.licence_within frame)) ih

theorem Abides.block (hev : ev.Abides R run) (b : Block) (frame : FrameId) :
    ev.Obeys R run (.setUp frame) (·.block b frame) :=
  hev.statementsFrom frame b.statements .null

/-- A block sets up a frame of its own, so any licence will do. -/
theorem Abides.scopedBlock (hev : ev.Abides R run) (b : Block) (outer : FrameId) :
    ev.Obeys R run l (·.scopedBlock b outer) :=
  Eval.Abides.inChild fun frame => hev.block b frame

/-! ### Operators and assignments -/

theorem Abides.place? (hev : ev.Abides R run) (frame : FrameId) (e : Expr) :
    ev.Obeys R run (.introduce frame) (·.place? frame e) := by
  cases e with
  | name id => exact abides_pure _
  | index left index loc =>
    refine Eval.Abides.bind (hev.expr left frame) fun container => ?_
    exact Eval.Abides.bind (hev.expr index frame) fun _ => abides_pure _
  | member object property loc =>
    exact Eval.Abides.bind (hev.expr object frame) fun _ => abides_pure _
  | _ => exact abides_pure none

/-- A compound assignment evaluates its place once. -/
theorem Abides.assign (hev : ev.Abides R run) (target : Expr) (op : AssignOp)
    (value : Expr) (loc : Location) (frame : FrameId) :
    ev.Obeys R run (.introduce frame) (·.assign target op value loc frame) := by
  refine Eval.Abides.bind (hev.place? frame target) fun place => ?_
  cases place with
  | none => exact abides_fail _ loc
  | some place =>
    dsimp only
    cases op.binary? with
    | none =>
      refine Eval.Abides.bind (hev.expr value frame) fun v => ?_
      exact Eval.Abides.bind (abides_writePlace frame v place) fun _ => abides_pure v
    | some op =>
      refine Eval.Abides.bind (abides_readPlace frame place) fun current => ?_
      refine Eval.Abides.bind (hev.expr value frame) fun right => ?_
      refine Eval.Abides.bind (abides_binary op current right loc) fun v => ?_
      exact Eval.Abides.bind (abides_writePlace frame v place) fun _ => abides_pure v

theorem Abides.step (hev : ev.Abides R run) (op : StepOp) (target : Expr)
    (frame : FrameId) :
    ev.Obeys R run (.introduce frame) (·.step op target frame) := by
  refine Eval.Abides.bind (hev.place? frame target) fun place => ?_
  split
  · exact abides_fail _ _
  · refine Eval.Abides.bind (abides_readPlace frame _) fun current => ?_
    split
    · refine Eval.Abides.bind (abides_adviseAll _ _) fun _ => ?_
      exact Eval.Abides.bind (abides_writePlace frame _ _) fun _ => abides_pure _
    · exact abides_fail _ _

theorem Abides.unary (hev : ev.Abides R run) (op : PrefixOp) (right : Expr)
    (loc : Location) (frame : FrameId) :
    ev.Obeys R run (.introduce frame) (·.unary op right loc frame) := by
  cases op with
  | increment =>
    exact Eval.Abides.bind (hev.step .increment right frame) fun _ =>
      abides_pure _
  | decrement =>
    exact Eval.Abides.bind (hev.step .decrement right frame) fun _ =>
      abides_pure _
  | not => exact Eval.Abides.bind (hev.holds right frame) fun _ => abides_pure _
  | minus =>
    refine Eval.Abides.bind (hev.expr right frame) fun v => ?_
    split
    · exact abides_takeComputed _ loc
    · exact abides_pure _
    · exact abides_fail _ loc

theorem Abides.binary (hev : ev.Abides R run) (left : Expr) (op : BinaryOp)
    (right : Expr) (loc : Location) (frame : FrameId) :
    ev.Obeys R run (.introduce frame) (·.binary left op right loc frame) := by
  have hright : ev.Obeys R run (.introduce frame) (fun ev => do
      return Value.bool (← ev.holds right frame)) :=
    Eval.Abides.bind (hev.holds right frame) fun _ => abides_pure _
  unfold Evaluator.binary
  split
  · exact Eval.Abides.bind (hev.holds left frame) fun _ =>
      Eval.Abides.ite hright (abides_pure _)
  · exact Eval.Abides.bind (hev.holds left frame) fun _ =>
      Eval.Abides.ite (abides_pure _) hright
  · refine Eval.Abides.bind (hev.expr left frame) fun x => ?_
    exact Eval.Abides.bind (hev.expr right frame) fun y =>
      abides_binary op x y loc

/-! ### Collections -/

/-- The elements are evaluated one by one, and a spread array may add several. -/
theorem Abides.elementsFrom (hev : ev.Abides R run) (frame : FrameId)
    (elements : List Expr) (values : Array Value) :
    ev.Obeys R run (.introduce frame) (·.elementsFrom frame elements values) := by
  induction elements generalizing values with
  | nil => exact abides_pure values
  | cons e elements ih =>
    cases e with
    | spread e loc =>
      refine Eval.Abides.bind (hev.expr e frame) fun v => ?_
      split
      · exact Eval.Abides.bind (abides_read _) fun items => ih _
      · exact abides_fail _ loc
    | _ => exact Eval.Abides.bind (hev.expr _ frame) fun v => ih _

theorem Abides.arrayLiteral (hev : ev.Abides R run) (elements : List Expr)
    (frame : FrameId) :
    ev.Obeys R run (.introduce frame) (·.arrayLiteral elements frame) :=
  Eval.Abides.bind (hev.elementsFrom frame elements #[]) fun items =>
    abides_onHeap fun h => .newArray h items

theorem Abides.entriesFrom (hev : ev.Abides R run) (frame : FrameId)
    (entries : List Entry) (table : ExtTreeMap MapKey MapEntry) :
    ev.Obeys R run (.introduce frame) (·.entriesFrom frame entries table) := by
  induction entries generalizing table with
  | nil => exact abides_pure table
  | cons entry entries ih =>
    obtain ⟨keyExpr, valueExpr⟩ := entry
    refine Eval.Abides.bind (hev.expr keyExpr frame) fun key => ?_
    split
    · exact abides_fail _ keyExpr.loc
    · exact Eval.Abides.bind (hev.expr valueExpr frame) fun _ => ih _

/-- Each entry is inserted under the key that its value has. -/
theorem gives_entriesFrom (ev : Evaluator) (frame : FrameId) (entries : List Entry)
    {table : ExtTreeMap MapKey MapEntry} (hkeyed : Keyed table) :
    (ev.entriesFrom frame entries table).Gives Keyed := by
  induction entries generalizing table with
  | nil => exact gives_pure hkeyed
  | cons entry entries ih =>
    obtain ⟨keyExpr, valueExpr⟩ := entry
    refine gives_bind _ fun key => ?_
    split
    · exact gives_fail _ keyExpr.loc
    · next id hid => exact gives_bind _ fun value => ih (hkeyed.insert hid value)

theorem Abides.mapLiteral (hev : ev.Abides R run) (entries : List Entry)
    (frame : FrameId) :
    ev.Obeys R run (.introduce frame) (·.mapLiteral entries frame) :=
  (hev.entriesFrom frame entries ∅).bindGiven
    (gives_entriesFrom ev frame entries .empty) fun _ hkeyed =>
      abides_onHeap fun h => .newMap h hkeyed

theorem Abides.fieldsFrom (hev : ev.Abides R run) (frame : FrameId)
    (struct : StructDef) (fields : List Field)
    (table : ExtTreeMap String Value) :
    ev.Obeys R run (.introduce frame) (·.fieldsFrom frame struct fields table) := by
  induction fields generalizing table with
  | nil => exact abides_pure table
  | cons field fields ih =>
    obtain ⟨name, valueExpr⟩ := field
    unfold Evaluator.fieldsFrom
    refine Eval.Abides.ite ?_ (abides_fail _ name.loc)
    exact Eval.Abides.bind (hev.expr valueExpr frame) fun _ => ih _

/-- Fields are only given values if they are there. -/
theorem gives_fieldsFrom (ev : Evaluator) (frame : FrameId) (struct : StructDef)
    (fields : List Field) {blank table : ExtTreeMap String Value}
    (hsame : ∀ name, name ∈ table ↔ name ∈ blank) :
    (ev.fieldsFrom frame struct fields table).Gives fun table =>
      ∀ name, name ∈ table ↔ name ∈ blank := by
  induction fields generalizing table with
  | nil => exact gives_pure hsame
  | cons field fields ih =>
    obtain ⟨name, valueExpr⟩ := field
    unfold Evaluator.fieldsFrom
    split
    · next hcontains =>
      have hmem := ExtTreeMap.mem_iff_contains.mpr hcontains
      refine gives_bind _ fun value => ih fun other => ?_
      exact (mem_insert_of_mem hmem value other).trans (hsame other)
    · exact gives_fail _ name.loc

/-- That its fields are those of the struct is what makes a new record a lawful step. -/
theorem Abides.recordLiteral (hev : ev.Abides R run) (struct : Name)
    (fields : List Field) (frame : FrameId) :
    ev.Obeys R run (.introduce frame) (·.recordLiteral struct fields frame) := by
  refine Eval.Abides.bind (abides_lookup? frame struct.text) fun found => ?_
  split
  · next d =>
    exact (hev.fieldsFrom frame d fields d.blank).bindGiven
      (gives_fieldsFrom ev frame d fields fun _ => Iff.rfl) fun _ hfields =>
        abides_onHeap fun h => .newRecord h (Record.complete_of_blank hfields)
  · exact abides_fail _ struct.loc

theorem Abides.index (hev : ev.Abides R run) (left index : Expr) (loc : Location)
    (frame : FrameId) :
    ev.Obeys R run (.introduce frame) (·.index left index loc frame) := by
  refine Eval.Abides.bind (hev.expr left frame) fun container => ?_
  exact Eval.Abides.bind (hev.expr index frame) fun _ => abides_askHeap loc _

theorem Abides.slice (hev : ev.Abides R run) (left : Expr) (start stop : Option Expr)
    (loc : Location) (frame : FrameId) :
    ev.Obeys R run (.introduce frame) (·.slice left start stop loc frame) := by
  refine Eval.Abides.bind (hev.expr left frame) fun container => ?_
  refine Eval.Abides.bind (hev.optional frame start) fun first => ?_
  refine Eval.Abides.bind (hev.optional frame stop) fun last => ?_
  exact Eval.Abides.bind (abides_askHeap loc _) abides_take

theorem Abides.member (hev : ev.Abides R run) (object : Expr) (property : Name)
    (loc : Location) (frame : FrameId) :
    ev.Obeys R run (.introduce frame) (·.member object property loc frame) :=
  Eval.Abides.bind (hev.expr object frame) fun _ => abides_askHeap loc _

theorem Abides.range (hev : ev.Abides R run) (start stop : Expr) (loc : Location)
    (frame : FrameId) :
    ev.Obeys R run (.introduce frame) (·.range start stop loc frame) := by
  refine Eval.Abides.bind (hev.expr start frame) fun first => ?_
  refine Eval.Abides.bind (hev.expr stop frame) fun last => ?_
  split
  · exact abides_pure _
  · exact abides_fail _ loc

/-! ### Built-in functions -/

/-- A call changes values only, and so do several. -/
theorem Abides.mapEach (hev : ev.Abides R run) (f : Value) (loc : Location)
    (items : List Value) (results : Array Value) :
    ev.Obeys R run .values (·.mapEach f loc items results) := by
  induction items generalizing results with
  | nil => exact abides_pure results
  | cons item items ih =>
    exact Eval.Abides.bind (hev.apply f [item] loc) fun _ => ih _

theorem Abides.filterEach (hev : ev.Abides R run) (f : Value) (loc : Location)
    (items : List Value) (kept : Array Value) :
    ev.Obeys R run .values (·.filterEach f loc items kept) := by
  induction items generalizing kept with
  | nil => exact abides_pure kept
  | cons item items ih =>
    refine Eval.Abides.bind (hev.apply f [item] loc) fun v => ?_
    exact Eval.Abides.bind (abides_read _) fun _ =>
      Eval.Abides.ite (ih _) (ih _)

theorem Abides.reduceEach (hev : ev.Abides R run) (f : Value) (loc : Location)
    (items : List Value) (result : Value) :
    ev.Obeys R run .values (·.reduceEach f loc items result) := by
  induction items generalizing result with
  | nil => exact abides_pure result
  | cons item items ih =>
    exact Eval.Abides.bind (hev.apply f [result, item] loc) ih

theorem Abides.mapArray (hev : ev.Abides R run) (loc : Location) (args : List Value) :
    ev.Obeys R run .values (·.mapArray loc args) := by
  unfold Evaluator.mapArray
  split
  · refine Eval.Abides.bind (abides_askHeap loc _) fun given => ?_
    exact Eval.Abides.bind (hev.mapEach _ loc _ #[]) fun results =>
      abides_onHeap fun h => .newArray h results
  · exact abides_askHeap loc _

theorem Abides.filterArray (hev : ev.Abides R run) (loc : Location)
    (args : List Value) :
    ev.Obeys R run .values (·.filterArray loc args) := by
  unfold Evaluator.filterArray
  split
  · refine Eval.Abides.bind (abides_askHeap loc _) fun given => ?_
    exact Eval.Abides.bind (hev.filterEach _ loc _ #[]) fun kept =>
      abides_onHeap fun h => .newArray h kept
  · exact abides_askHeap loc _

theorem Abides.reduceArray (hev : ev.Abides R run) (loc : Location)
    (args : List Value) :
    ev.Obeys R run .values (·.reduceArray loc args) := by
  unfold Evaluator.reduceArray
  split
  · exact Eval.Abides.bind (abides_askHeap loc _) fun _ =>
      hev.reduceEach _ loc _ _
  · exact abides_askHeap loc _

/-- No built-in function binds a name. -/
theorem Abides.callBuiltin (hev : ev.Abides R run) (f : Builtin) (args : List Value)
    (loc : Location) :
    ev.Obeys R run .values (·.callBuiltin f args loc) := by
  unfold Evaluator.callBuiltin
  split
  · exact Eval.Abides.bind (abides_askHeap loc _) abides_take
  · split
    · exact abides_push loc args
    · exact abides_pop loc args
    · exact hev.mapArray loc args
    · exact hev.filterArray loc args
    · exact hev.reduceArray loc args
    · exact abides_input loc args
    · exact abides_printLine args

/-! ### Functions and calls -/

/-- The parameters and the body share the frame of the call. -/
theorem Abides.runBody (hev : ev.Abides R run) (f : Closure) (args : List Value)
    (receiver : Option Value) (loc : Location) (frame : FrameId) :
    ev.Obeys R run (.setUp frame) (·.runBody f args receiver loc frame) := by
  have hbody : ev.Obeys R run (.setUp frame) (fun ev => do
      Eval.bindParams f.name f.code.params args frame loc
      Eval.inCall ev.settings.callLimit f.name loc
        (Eval.complete (ev.block f.code.body frame))) :=
    Eval.Abides.bind (abides_bindParams _ _ args frame loc) fun _ =>
      (hev.block f.code.body frame).complete.inCall
  cases receiver with
  | none => exact hbody
  | some v =>
    exact Eval.Abides.bind (abides_define frame "self" v) fun _ => hbody

/-- The frame of the call is opened inside, so nothing of it shows. -/
theorem Abides.callFunction (hev : ev.Abides R run) (f : Closure) (args : List Value)
    (receiver : Option Value) (loc : Location) :
    ev.Obeys R run .values (·.callFunction f args receiver loc) := by
  refine Eval.Abides.ite ?_ (abides_fail _ loc)
  refine Eval.Abides.bind (Eval.Abides.inChild fun frame => ?_) fun c => ?_
  · exact hev.runBody f args receiver loc frame
  · exact abides_checkReturn f c loc

theorem Abides.callArrow (hev : ev.Abides R run) (f : ArrowClosure)
    (args : List Value) (loc : Location) :
    ev.Obeys R run .values (·.callArrow f args loc) := by
  refine Eval.Abides.ite ?_ (abides_fail _ loc)
  refine Eval.Abides.bind (Eval.Abides.inCall ?_) fun c => abides_pure c.value
  refine Eval.Abides.inChild fun frame => ?_
  exact Eval.Abides.bind (abides_bindNames frame f.params args) fun _ =>
    ((hev.expr f.body frame).widen (.introduceSetUp frame)).complete

theorem Abides.call (hev : ev.Abides R run) (callee : Value) (args : List Value)
    (loc : Location) :
    ev.Obeys R run .values (·.call callee args loc) := by
  unfold Evaluator.call
  split
  · exact hev.callFunction _ args none loc
  · exact hev.callArrow _ args loc
  · exact hev.callBuiltin _ args loc
  · exact abides_fail _ loc

theorem Abides.callFree (hev : ev.Abides R run) (free : Option Value)
    (receiver : Value) (args : List Value) (problem : Problem)
    (loc : Location) :
    ev.Obeys R run .values (·.callFree free receiver args problem loc) := by
  cases free with
  | none => exact abides_fail problem loc
  | some f => exact hev.call f (receiver :: args) loc

/-- The frame is asked for a function of the name, and no more. -/
theorem Abides.callMember (hev : ev.Abides R run) (receiver : Value) (name : String)
    (args : List Value) (frame : FrameId) (loc : Location) :
    ev.Obeys R run .values (·.callMember receiver name args frame loc) := by
  refine Eval.Abides.bind (abides_read _) fun free => ?_
  split
  · refine Eval.Abides.bind (abides_read _) fun r => ?_
    refine Eval.Abides.bind (abides_read _) fun found => ?_
    split
    · exact hev.callFunction _ args _ loc
    · split
      · exact hev.call _ args loc
      · exact hev.callFree free _ args _ loc
  · refine Eval.Abides.bind (abides_read _) fun found => ?_
    split
    · exact hev.callFunction _ args none loc
    · exact hev.callFree free _ args _ loc
  · refine Eval.Abides.bind (abides_read _) fun v => ?_
    exact Eval.Abides.ite (hev.call v args loc)
      (hev.callFree free _ args _ loc)
  · exact hev.callFree free _ args _ loc

/-- The arguments are evaluated in the frame of the call expression. -/
theorem Abides.callExpr (hev : ev.Abides R run) (callee : Expr) (args : List Expr)
    (loc : Location) (frame : FrameId) :
    ev.Obeys R run (.introduce frame) (·.callExpr callee args loc frame) := by
  unfold Evaluator.callExpr
  split
  · refine Eval.Abides.bind (hev.expr _ frame) fun receiver => ?_
    exact Eval.Abides.bind (hev.elementsFrom frame args #[]) fun values =>
      (hev.callMember receiver _ values.toList frame loc).ofValues
  · refine Eval.Abides.bind (hev.expr callee frame) fun f => ?_
    exact Eval.Abides.bind (hev.elementsFrom frame args #[]) fun values =>
      (hev.call f values.toList loc).ofValues

/-! ### Loops -/

/-- A round has a frame of its own. -/
theorem Abides.roundWith (hev : ev.Abides R run) (names : LoopNames) (body : Block)
    (frame : FrameId) (keyed : Bool) (key value : Value) :
    ev.Obeys R run l (·.roundWith names body frame keyed key value) := by
  refine Eval.Abides.inChild fun scope => ?_
  exact Eval.Abides.bind (names.abides_bind scope keyed key value) fun _ =>
    (hev.block body scope).goesOn

theorem Abides.walkPairs (hev : ev.Abides R run) (names : LoopNames) (body : Block)
    (frame : FrameId) (keyed : Bool) (pairs : List (Value × Value)) :
    ev.Obeys R run l (·.walkPairs names body frame keyed pairs) := by
  induction pairs with
  | nil => exact abides_pure _
  | cons pair pairs ih =>
    exact Eval.Abides.bind (hev.roundWith names body frame keyed _ _) fun _ =>
      Eval.Abides.ite ih (abides_pure _)

theorem Abides.walkNumbers (hev : ev.Abides R run) (names : LoopNames) (body : Block)
    (frame : FrameId) (stop : Int64) (i : Nat) (number : Int64) :
    ev.Obeys R run l (·.walkNumbers names body frame stop i number) := by
  change Eval.Abides R l (ev.walkNumbers names body frame stop i number)
    ((ev.asking run).walkNumbers names body frame stop i number)
  induction number using Range.way_induction stop generalizing i with
  | arrived =>
    rw [walkNumbers_stop, walkNumbers_stop]
    exact abides_pure _
  | onTheWay number hne ih =>
    rw [walkNumbers_of_ne ev hne, walkNumbers_of_ne _ hne]
    exact Eval.Abides.bind (hev.roundWith names body frame false _ _) fun _ =>
      Eval.Abides.ite (ih (i + 1)) (abides_pure _)

/-- The container is evaluated once, in the frame around the loop. -/
theorem Abides.forEach (hev : ev.Abides R run) (names : LoopNames) (iterable : Expr)
    (body : Block) (frame : FrameId) :
    ev.Obeys R run (.introduce frame) (·.forEach names iterable body frame) := by
  refine Eval.Abides.bind (hev.expr iterable frame) fun v => ?_
  refine Eval.Abides.bind (abides_askHeap iterable.loc _) fun walk => ?_
  split
  · exact hev.walkPairs names body frame false _
  · exact hev.walkPairs names body frame true _
  · exact hev.walkNumbers names body frame _ 0 _

theorem Abides.round (hev : ev.Abides R run) (body : Block) (frame : FrameId) :
    ev.Obeys R run l (·.round body frame) :=
  Eval.Abides.inChild fun scope => (hev.block body scope).goesOn

theorem Abides.whileRounds (hev : ev.Abides R run) (condition : Expr) (body : Block)
    (frame : FrameId) (n : Nat) :
    ev.Obeys R run (.introduce frame) (·.whileRounds condition body frame n) := by
  induction n with
  | zero => exact abides_outOfBound
  | succ n ih =>
    refine Eval.Abides.bind (hev.holds condition frame) fun again => ?_
    refine Eval.Abides.ite ?_ (abides_pure _)
    exact Eval.Abides.bind (hev.round body frame) fun _ =>
      Eval.Abides.ite ih (abides_pure _)

theorem Abides.whileLoop (hev : ev.Abides R run) (condition : Expr) (body : Block)
    (loc : Location) (frame : FrameId) :
    ev.Obeys R run (.introduce frame) (·.whileLoop condition body loc frame) := by
  have hloop : ev.Obeys R run (.introduce frame) (fun ev => Eval.inLoop loc
        (ev.whileRounds condition body frame ev.rounds)) :=
    (hev.whileRounds condition body frame ev.rounds).inLoop
  refine Eval.Abides.ite ?_ ?_
  · exact Eval.Abides.bind (abides_advise _ loc) fun _ => hloop
  · exact hloop

theorem Abides.continues (hev : ev.Abides R run) (condition : Option Expr)
    (frame : FrameId) :
    ev.Obeys R run (.introduce frame) (·.continues condition frame) := by
  cases condition with
  | none => exact abides_pure true
  | some e => exact hev.holds e frame

theorem Abides.countingRounds (hev : ev.Abides R run) (condition update : Option Expr)
    (body : Block) (frame : FrameId) (n : Nat) :
    ev.Obeys R run (.introduce frame)
      (·.countingRounds condition update body frame n) := by
  induction n with
  | zero => exact abides_outOfBound
  | succ n ih =>
    refine Eval.Abides.bind (hev.continues condition frame) fun again => ?_
    refine Eval.Abides.ite ?_ (abides_pure _)
    refine Eval.Abides.bind (hev.round body frame) fun goesOn => ?_
    refine Eval.Abides.ite ?_ (abides_pure _)
    exact Eval.Abides.bind (hev.optional frame update) fun _ => ih

/-- The header sets up a frame around all rounds. -/
theorem Abides.countingLoop (hev : ev.Abides R run) (start : Option Stmt)
    (condition update : Option Expr) (body : Block) (frame : FrameId) :
    ev.Obeys R run l (·.countingLoop start condition update body frame) := by
  refine Eval.Abides.inChild fun scope => ?_
  have hrounds := (hev.countingRounds condition update body scope ev.rounds).widen
    (.introduceSetUp scope)
  cases start with
  | none => exact hrounds
  | some s =>
    exact Eval.Abides.bind ((hev.stmt s scope).widen (s.licence_within scope))
      fun _ => hrounds

theorem Abides.forLoop (hev : ev.Abides R run) (header : LoopHeader) (body : Block)
    (loc : Location) (frame : FrameId) :
    ev.Obeys R run (.introduce frame) (·.forLoop header body loc frame) := by
  refine Eval.Abides.inLoop ?_
  split
  · exact hev.forEach _ _ body frame
  · exact hev.forEach _ _ body frame
  · exact hev.countingLoop _ _ _ body frame

/-! ### Choices -/

theorem Abides.scopedBlock? (hev : ev.Abides R run) (frame : FrameId)
    (b : Option Block) :
    ev.Obeys R run l (·.scopedBlock? frame b) := by
  cases b with
  | none => exact abides_pure _
  | some b => exact hev.scopedBlock b frame

theorem Abides.branch (hev : ev.Abides R run) (condition : Expr) (consequence : Block)
    (alternative : Option Block) (frame : FrameId) :
    ev.Obeys R run (.introduce frame)
      (·.branch condition consequence alternative frame) :=
  Eval.Abides.bind (hev.holds condition frame) fun _ =>
    Eval.Abides.ite (hev.scopedBlock consequence frame)
      (hev.scopedBlock? frame alternative)

theorem Abides.ternary (hev : ev.Abides R run)
    (condition consequence alternative : Expr) (frame : FrameId) :
    ev.Obeys R run (.introduce frame)
      (·.ternary condition consequence alternative frame) :=
  Eval.Abides.bind (hev.holds condition frame) fun _ =>
    Eval.Abides.ite (hev.expr consequence frame) (hev.expr alternative frame)

theorem Abides.selects (hev : ev.Abides R run) (subject : Value) (frame : FrameId)
    (values : List Expr) :
    ev.Obeys R run (.introduce frame) (·.selects subject frame values) := by
  induction values with
  | nil => exact abides_pure false
  | cons e values ih =>
    refine Eval.Abides.bind (hev.expr e frame) fun v => ?_
    exact Eval.Abides.bind (abides_read _) fun _ =>
      Eval.Abides.ite (abides_pure true) ih

/-- The values of the cases are evaluated in turn until one is equal. -/
theorem Abides.switchCases (hev : ev.Abides R run) (subject : Value)
    (default : Option Block) (frame : FrameId) (cases : List Case) :
    ev.Obeys R run (.introduce frame) (·.switchCases subject default frame cases) := by
  induction cases with
  | nil => exact hev.scopedBlock? frame default
  | cons c cases ih =>
    exact Eval.Abides.bind (hev.selects subject frame c.values) fun _ =>
      Eval.Abides.ite (hev.scopedBlock c.body frame) ih

theorem Abides.switch (hev : ev.Abides R run) (subject : Expr) (cases : List Case)
    (default : Option Block) (frame : FrameId) :
    ev.Obeys R run (.introduce frame) (·.switch subject cases default frame) :=
  Eval.Abides.bind (hev.expr subject frame) fun v =>
    hev.switchCases v default frame cases

/-- The problem is bound in the frame of the handler. -/
theorem Abides.handle (hev : ev.Abides R run) (t : Attempt) (frame : FrameId)
    (problem : Problem) :
    ev.Obeys R run l (·.handle t frame problem) := by
  unfold Evaluator.handle
  split
  · exact abides_pure _
  · refine Eval.Abides.inChild fun scope => ?_
    split
    · exact Eval.Abides.bind (abides_define scope _ _) fun _ =>
        hev.block _ scope
    · exact hev.block _ scope

theorem Abides.attempt (hev : ev.Abides R run) (t : Attempt) (frame : FrameId) :
    ev.Obeys R run l (·.attempt t frame) :=
  Eval.Abides.orElse (hev.scopedBlock t.body frame) (hev.handle t frame)

/-! ### Declarations -/

/-- The value may introduce names, which a declaration may as well. -/
theorem Abides.declare (hev : ev.Abides R run) (constant : Bool) (name : Name)
    (type : Option TypeExpr) (value : Expr) (loc : Location)
    (frame : FrameId) :
    ev.Obeys R run (.declare frame)
      (·.declare constant name type value loc frame) := by
  refine Eval.Abides.bind ((hev.expr value frame).widen (.introduceDeclare frame))
    fun v => ?_
  have hbind := abides_bindVariable (R := R) constant name v loc frame
  cases type with
  | none => exact hbind
  | some type =>
    exact Eval.Abides.bind (abides_checkBinding _ type v frame loc) fun _ => hbind

theorem Abides.leaveWith (hev : ev.Abides R run) (value : Option Expr)
    (frame : FrameId) :
    ev.Obeys R run (.introduce frame) (·.leaveWith value frame) :=
  Eval.Abides.bind (hev.optional frame value) fun _ => abides_leave _

/-! ### The whole -/

theorem Abides.evalExpr (hev : ev.Abides R run) (frame : FrameId) (e : Expr) :
    ev.Obeys R run (.introduce frame) (·.evalExpr frame e) := by
  cases e with
  | name id => exact abides_nameValue id frame
  | int value loc => exact abides_pure _
  | float literal loc => exact abides_pure _
  | str value loc => exact abides_pure _
  | bool value loc => exact abides_pure _
  | unary op right loc => exact hev.unary op right loc frame
  | binary left op right loc => exact hev.binary left op right loc frame
  | step op target loc =>
    exact Eval.Abides.bind (hev.step op target frame) fun _ => abides_pure _
  | assign target op value loc => exact hev.assign target op value loc frame
  | branch condition consequence alternative loc =>
    exact hev.branch condition consequence alternative frame
  | function f =>
    exact Eval.Abides.bind (abides_makeFunction f frame) fun _ => abides_pure _
  | arrow params body loc => exact abides_makeArrow params body frame
  | call callee args loc => exact hev.callExpr callee args loc frame
  | array elements loc => exact hev.arrayLiteral elements frame
  | index left index loc => exact hev.index left index loc frame
  | slice left start stop loc => exact hev.slice left start stop loc frame
  | spread e loc => exact abides_fail _ loc
  | map entries loc => exact hev.mapLiteral entries frame
  | member object property loc => exact hev.member object property loc frame
  | record struct fields loc => exact hev.recordLiteral struct fields frame
  | whileLoop condition body loc => exact hev.whileLoop condition body loc frame
  | forLoop header body loc => exact hev.forLoop header body loc frame
  | switch subject cases default loc =>
    exact hev.switch subject cases default frame
  | ternary condition consequence alternative loc =>
    exact hev.ternary condition consequence alternative frame
  | range start stop loc => exact hev.range start stop loc frame
  | attempt t => exact hev.attempt t frame

theorem Abides.evalStmt (hev : ev.Abides R run) (frame : FrameId) (s : Stmt) :
    ev.Obeys R run (s.licence frame) (·.evalStmt frame s) := by
  cases s with
  | bind constant name type value loc =>
    exact hev.declare constant name type value loc frame
  | ret value loc => exact hev.leaveWith value frame
  | includes modules grouped loc => exact abides_includeModules _ loc frame modules
  | attempt t => exact hev.attempt t frame
  | struct name fields loc => exact abides_declareStruct name fields frame
  | enum name variants loc => exact abides_declareEnum name variants frame
  | method struct f loc => exact abides_declareMethod struct f frame
  | brk loc => exact abides_leave _
  | cont loc => exact abides_leave _
  | expr e loc => exact hev.expr e frame

/-- The licence of a task is that of what it evaluates. -/
theorem Abides.evalTask (hev : ev.Abides R run) (task : Task) :
    ev.Obeys R run task.licence (·.evalTask task) := by
  cases task with
  | expr e frame => exact hev.evalExpr frame e
  | stmt s frame => exact hev.evalStmt frame s
  | apply callee args loc => exact hev.call callee args loc

theorem Abides.program (hev : ev.Abides R run) (p : Program) :
    ev.Obeys R run (.setUp Arena.root) (·.program p) :=
  Eval.Abides.bind (hev.statementsFrom Arena.root p.statements .null).complete
    fun c => Eval.abides_pure c.value

end Evaluator

/-- Whatever is evaluated, it keeps to its licence. -/
theorem evaluate_licensed (settings : Settings) (n : Nat) (task : Task)
    {kept : Array Nat} {m m' : Machine} (hend : (evaluate settings n task m).machine? = some m') :
    Licensed settings.callLimit kept task.licence m m' := by
  induction n generalizing task m m' with
  | zero => cases hend
  | succ n ih =>
    have hev : (Evaluator.bounded settings n).Abides (.everywhere _ kept)
        (evaluate settings n) := fun task =>
      Eval.abides_of_licensed fun m m' hpart => ih task hpart
    exact (hev.evalTask task m trivial).2 m' hend

theorem Evaluator.bounded_abides (settings : Settings) (n : Nat) (kept : Array Nat) :
    (Evaluator.bounded settings n).Abides (.everywhere _ kept) (evaluate settings n) :=
  fun task => Eval.abides_of_licensed fun _ _ hend =>
    evaluate_licensed settings n task hend

/-- Evaluation nests, whatever is evaluated. -/
theorem evaluate_nests (settings : Settings) (n : Nat) (task : Task) :
    Eval.Nests settings.callLimit (evaluate settings n task) :=
  fun m m' hend =>
    have hlicensed : Licensed settings.callLimit #[] task.licence m m' :=
      evaluate_licensed settings n task hend
    hlicensed.nested

/-- A program sets up the root frame. -/
theorem program_licensed (settings : Settings) (n : Nat) (p : Program)
    {kept : Array Nat} {m m' : Machine}
    (hend : ((Evaluator.bounded settings n).program p m).machine? = some m') :
    Licensed settings.callLimit kept (.setUp Arena.root) m m' :=
  (((Evaluator.bounded_abides settings n kept).program p) m trivial).2 m' hend

end Script
