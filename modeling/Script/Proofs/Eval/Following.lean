import Script.Proofs.Eval.Notes
import Script.Proofs.Eval.Steps

/-!
# Every rule of evaluation follows

Evaluators that follow one another on what is inside an expression, a statement
or a call do so on the whole.  The rules are gone through in the order in which
they are defined.  What the calls inside a rule need is kept apart from what the
expressions in it need: the body of a function is judged one call further in, and
a built-in function calls others with fewer arguments than it has itself.
-/

namespace Script

open Std (ExtTreeMap)
open Scope (Arena FrameId)
open Comparison

namespace Comparison

section

variable (r : Comparison) (ev₁ ev₂ : Evaluator) (depth : Nat)
  (jumps : Jump → Prop)

/-! ### Parts that follow -/

def FollowsExpr (e : Expr) : Prop :=
  ∀ frame, r.Follows depth jumps (ev₁.expr e frame)
    (ev₂.expr (e.relocate r.move) frame)

def FollowsStmt (s : Stmt) : Prop :=
  ∀ frame, r.Follows depth jumps (ev₁.stmt s frame)
    (ev₂.stmt (s.relocate r.move) frame)

def FollowsBlock (b : Block) : Prop :=
  ∀ s ∈ b.statements, r.FollowsStmt ev₁ ev₂ depth jumps s

/-- Calls with fewer than `n` arguments follow, and no jump leaves them. -/
def FollowsApply (n : Nat) : Prop :=
  ∀ {callee callee' args args'} (loc : Location), r.Related callee callee' →
    r.Related args args' → args.length < n →
    r.Follows depth noJump (ev₁.apply callee args loc)
      (ev₂.apply callee' args' (r.move loc))

/-- What may be left of the bound of the second run, if `n` is left of that of the
first one. -/
def BoundLeft (n n' : Nat) : Prop :=
  n = n' ∨ r.stopping = .alone ∧ n ≤ n'

/-- What two evaluators have in common apart from the calls they make. -/
structure Alike : Prop where
  library : ∀ name,
    r.Related (ev₁.settings.library name) (ev₂.settings.library name)
  rounds : r.BoundLeft ev₁.rounds ev₂.rounds

/-- What two evaluators have in common where calls are made from: `n` is one more
than the number of arguments with which built-in functions call others. -/
structure Sides (n : Nat) : Prop where
  limit : ev₁.settings.callLimit = ev₂.settings.callLimit ∨
    depth < ev₁.settings.callLimit ∧ depth < ev₂.settings.callLimit
  function : depth < ev₁.settings.callLimit →
    ∀ f : Function, r.guard.function f = f →
      r.FollowsBlock ev₁ ev₂ (depth + 1) anyJump f.body
  arrow : depth < ev₁.settings.callLimit →
    ∀ body : Expr, r.guard.body body = body →
      r.FollowsExpr ev₁ ev₂ (depth + 1) anyJump body
  refused : ev₁.settings.callLimit ≤ depth → ∀ name,
    r.guard.refusal ev₁.settings.callLimit name =
      .recursionDepth ev₁.settings.callLimit name
  apply : r.FollowsApply ev₁ ev₂ depth n

end

variable {r : Comparison} {ev₁ ev₂ : Evaluator} {depth : Nat}
  {jumps : Jump → Prop}

namespace Follows

/-! ### The recursive parts -/

theorem holds {e : Expr} (h : r.FollowsExpr ev₁ ev₂ depth jumps e)
    (frame : FrameId) :
    r.Follows depth jumps (ev₁.holds e frame)
      (ev₂.holds (e.relocate r.move) frame) :=
  bind (h frame) fun _ _ hvalue => truthy hvalue

theorem optional {e : Option Expr}
    (h : ∀ e' ∈ e, r.FollowsExpr ev₁ ev₂ depth jumps e') (frame : FrameId) :
    r.Follows depth jumps (ev₁.optional frame e)
      (ev₂.optional frame (relocateExpr? r.move e)) := by
  cases e with
  | none => exact pure .none
  | some e => exact mapResult (h e rfl frame) fun _ _ hvalue => hvalue.some

theorem statementsFrom {statements : List Stmt}
    (h : ∀ s ∈ statements, r.FollowsStmt ev₁ ev₂ depth jumps s)
    (frame : FrameId) {last last' : Value} (hlast : r.Related last last') :
    r.Follows depth jumps (ev₁.statementsFrom frame statements last)
      (ev₂.statementsFrom frame (statements.map (Stmt.relocate r.move))
        last') := by
  induction statements generalizing last last' with
  | nil => exact pure hlast
  | cons s statements ih =>
    exact bind (h s List.mem_cons_self frame) fun _ _ hvalue =>
      ih (fun s' hs' => h s' (List.mem_cons_of_mem s hs')) hvalue

theorem block {b : Block} (h : r.FollowsBlock ev₁ ev₂ depth jumps b)
    (frame : FrameId) :
    r.Follows depth jumps (ev₁.block b frame)
      (ev₂.block (b.relocate r.move) frame) := by
  unfold Evaluator.block
  rw [Block.statements_relocate]
  exact statementsFrom h frame ⟨rfl, rfl⟩

theorem scopedBlock {b : Block} (h : r.FollowsBlock ev₁ ev₂ depth jumps b)
    (outer : FrameId) :
    r.Follows depth jumps (ev₁.scopedBlock b outer)
      (ev₂.scopedBlock (b.relocate r.move) outer) :=
  inChild fun frame => block h frame

end Follows

/-! ### Operators and assignments -/

/-- The expressions that are evaluated to find a place. -/
def placeParts : Expr → List Expr
  | .index left index _ => [left, index]
  | .member object _ _ => [object]
  | _ => []

namespace Follows

theorem place? {target : Expr}
    (h : ∀ e ∈ placeParts target, r.FollowsExpr ev₁ ev₂ depth jumps e)
    (frame : FrameId) :
    r.Follows depth jumps (ev₁.place? frame target)
      (ev₂.place? frame (target.relocate r.move)) := by
  cases target with
  | name id => exact pure (Places.name id).related.some
  | index left index loc =>
    refine bind (h left (by simp [placeParts]) frame) fun _ _ hcontainer => ?_
    refine bind (h index (by simp [placeParts]) frame) fun _ _ hindex => ?_
    exact pure (Places.element hcontainer hindex loc).related.some
  | member object property loc =>
    refine bind (h object (by simp [placeParts]) frame) fun _ _ hobject => ?_
    exact pure (Places.member hobject property.text loc).related.some
  | _ => exact pure .none

theorem targetName_relocate (move : Location → Location) (e : Expr) :
    Evaluator.targetName (e.relocate move) = Evaluator.targetName e := by
  cases e <;> rfl

theorem assign {target value : Expr} (op : AssignOp)
    (htarget : ∀ e ∈ placeParts target, r.FollowsExpr ev₁ ev₂ depth jumps e)
    (hvalue : r.FollowsExpr ev₁ ev₂ depth jumps value) (loc : Location)
    (frame : FrameId) :
    r.Follows depth jumps (ev₁.assign target op value loc frame)
      (ev₂.assign (target.relocate r.move) op (value.relocate r.move)
        (r.move loc) frame) := by
  unfold Evaluator.assign
  rw [targetName_relocate]
  refine bind (place? htarget frame) fun x y hfound => ?_
  rcases hfound.cases_option with ⟨rfl, rfl⟩ | ⟨p, q, rfl, rfl, hpq⟩
  · exact fail rfl loc
  · cases op.binary? with
    | none =>
      refine bind (hvalue frame) fun _ _ hv => ?_
      exact bindPlain (writePlace hpq.places hv frame) fun _ => pure hv
    | some op =>
      refine bind (readPlace hpq.places frame) fun _ _ hcurrent => ?_
      refine bind (hvalue frame) fun _ _ hright => ?_
      refine bind (binary op hcurrent hright loc) fun _ _ hv => ?_
      exact bindPlain (writePlace hpq.places hv frame) fun _ => pure hv

theorem step {target : Expr} (op : StepOp)
    (htarget : ∀ e ∈ placeParts target, r.FollowsExpr ev₁ ev₂ depth jumps e)
    (frame : FrameId) :
    r.Follows depth jumps (ev₁.step op target frame)
      (ev₂.step op (target.relocate r.move) frame) := by
  unfold Evaluator.step
  rw [Expr.loc_relocate]
  refine bind (place? htarget frame) fun x y hfound => ?_
  rcases hfound.cases_option with ⟨rfl, rfl⟩ | ⟨p, q, rfl, rfl, hpq⟩
  · exact fail rfl target.loc
  · refine bind (readPlace hpq.places frame) fun v w hv => ?_
    obtain ⟨rfl, -⟩ := hv
    cases v with
    | int old =>
      refine bindPlain (adviseAll _ target.loc) fun _ => ?_
      exact bindPlain (writePlace hpq.places ⟨rfl, rfl⟩ frame) fun _ =>
        pure (.pair (.codeless _) (.codeless _))
    | _ => exact fail rfl target.loc

/-- The value of a step, before or after it. -/
theorem stepValue {c₁ c₂ : Eval (Int64 × Int64)}
    (h : r.Follows depth jumps c₁ c₂) (side : Int64 × Int64 → Int64)
    (hside : ∀ {x y}, r.Related x y → side x = side y) :
    r.Follows depth jumps (do return Value.int (side (← c₁)))
      (do return Value.int (side (← c₂))) :=
  mapResult h fun _ _ hxy => by
    rw [hside hxy]
    exact ⟨rfl, rfl⟩

theorem unary {right : Expr} (op : PrefixOp)
    (h : r.FollowsExpr ev₁ ev₂ depth jumps right)
    (hplace : ∀ e ∈ placeParts right, r.FollowsExpr ev₁ ev₂ depth jumps e)
    (loc : Location) (frame : FrameId) :
    r.Follows depth jumps (ev₁.unary op right loc frame)
      (ev₂.unary op (right.relocate r.move) (r.move loc) frame) := by
  cases op with
  | increment =>
    exact stepValue (step .increment hplace frame) Prod.snd
      fun hxy => hxy.snd.eq_of_codeless
  | decrement =>
    exact stepValue (step .decrement hplace frame) Prod.snd
      fun hxy => hxy.snd.eq_of_codeless
  | not => exact bindPlain (holds h frame) fun b => pure ⟨rfl, rfl⟩
  | minus =>
    refine bind (h frame) fun v w hvalue => ?_
    obtain ⟨rfl, -⟩ := hvalue
    cases v with
    | int n =>
      have hnegated : r.Related (Operator.negated n) (Operator.negated n) :=
        ⟨Operator.recode_settled _ _ _ _ _ _, Operator.recode_settled _ _ _ _ _ _⟩
      exact takeComputed hnegated loc
    | float x => exact pure ⟨rfl, rfl⟩
    | _ => exact fail rfl loc

/-- `&&` and `||` leave the right side out in both runs or in none. -/
theorem binaryExpr {left right : Expr} (op : BinaryOp)
    (hleft : r.FollowsExpr ev₁ ev₂ depth jumps left)
    (hright : r.FollowsExpr ev₁ ev₂ depth jumps right) (loc : Location)
    (frame : FrameId) :
    r.Follows depth jumps (ev₁.binary left op right loc frame)
      (ev₂.binary (left.relocate r.move) op (right.relocate r.move)
        (r.move loc) frame) := by
  have hplain : ∀ op, r.Follows depth jumps
      (do
        let left ← ev₁.expr left frame
        let right ← ev₁.expr right frame
        Eval.binary op left right loc)
      (do
        let left ← ev₂.expr (left.relocate r.move) frame
        let right ← ev₂.expr (right.relocate r.move) frame
        Eval.binary op left right (r.move loc)) := fun op =>
    bind (hleft frame) fun _ _ hl => bind (hright frame) fun _ _ hr =>
      binary op hl hr loc
  have hlast : r.Follows depth jumps
      (do return Value.bool (← ev₁.holds right frame))
      (do return Value.bool (← ev₂.holds (right.relocate r.move) frame)) :=
    bindPlain (holds hright frame) fun _ => pure ⟨rfl, rfl⟩
  cases op with
  | and =>
    exact bindPlain (holds hleft frame) fun _ =>
      ite (fun _ => hlast) fun _ => pure ⟨rfl, rfl⟩
  | or =>
    exact bindPlain (holds hleft frame) fun _ =>
      ite (fun _ => pure ⟨rfl, rfl⟩) fun _ => hlast
  | _ => exact hplain _

end Follows

/-! ### Collections -/

/-- An element of an array or an argument without the sign that spreads it. -/
def unspread : Expr → Expr
  | .spread e _ => e
  | e => e

namespace Follows

theorem elementsFrom {elements : List Expr}
    (h : ∀ e ∈ elements, r.FollowsExpr ev₁ ev₂ depth jumps (unspread e))
    (frame : FrameId) {values values' : Array Value}
    (hvalues : r.Related values values') :
    r.Follows depth jumps (ev₁.elementsFrom frame elements values)
      (ev₂.elementsFrom frame (relocateExprs r.move elements) values') := by
  rw [relocateExprs_eq_map]
  induction elements generalizing values values' with
  | nil => exact pure hvalues
  | cons e elements ih =>
    have hrest : ∀ e' ∈ elements, r.FollowsExpr ev₁ ev₂ depth jumps (unspread e') :=
      fun e' he' => h e' (List.mem_cons_of_mem e he')
    have hfirst := h e List.mem_cons_self
    cases e with
    | spread e loc =>
      refine bind (hfirst frame) fun v w hv => ?_
      obtain ⟨rfl, -⟩ := hv
      cases v with
      | array cell =>
        refine bind (read fun _ _ hagree => .map (f := (·.items cell))
          (fun ρ h => Heap.items_recode ρ h cell) hagree.heap)
          fun items items' hitems => ?_
        exact ih hrest (.map₂ (f := (· ++ ·))
          (fun ρ xs ys => by simp [recode_array]) hvalues hitems)
      | _ => exact fail rfl loc
    | _ => exact bind (hfirst frame) fun _ _ hv => ih hrest (hvalues.push hv)

/-- Items are found, and a new array is made of them. -/
theorem newArray {c₁ c₂ : Eval (Array Value)} (h : r.Follows depth jumps c₁ c₂) :
    r.Follows depth jumps (do Eval.onHeap (·.newArray (← c₁)))
      (do Eval.onHeap (·.newArray (← c₂))) :=
  bind h fun _ _ hitems => onHeap fun _ _ hheap =>
    .map₂ (f := Heap.newArray) Heap.newArray_recode hheap hitems

theorem arrayLiteral {elements : List Expr}
    (h : ∀ e ∈ elements, r.FollowsExpr ev₁ ev₂ depth jumps (unspread e))
    (frame : FrameId) :
    r.Follows depth jumps (ev₁.arrayLiteral elements frame)
      (ev₂.arrayLiteral (relocateExprs r.move elements) frame) :=
  newArray (elementsFrom h frame .empty)

theorem entriesFrom {entries : List Entry}
    (h : ∀ e ∈ entries, r.FollowsExpr ev₁ ev₂ depth jumps e.key ∧
      r.FollowsExpr ev₁ ev₂ depth jumps e.value) (frame : FrameId)
    {table table' : ExtTreeMap MapKey MapEntry} (htable : r.Related table table') :
    r.Follows depth jumps (ev₁.entriesFrom frame entries table)
      (ev₂.entriesFrom frame (relocateEntries r.move entries) table') := by
  rw [relocateEntries_eq_map]
  induction entries generalizing table table' with
  | nil => exact pure htable
  | cons entry entries ih =>
    obtain ⟨hkey, hvalue⟩ := h entry List.mem_cons_self
    have hrest := fun e he => h e (List.mem_cons_of_mem entry he)
    obtain ⟨key, value⟩ := entry
    refine bind (hkey frame) fun v w hv => ?_
    have hid : w.mapKey? = v.mapKey? := by
      rw [← hv.moved, Value.mapKey?_recode]
    have htag : w.tag = v.tag := by rw [← hv.moved, Value.tag_recode]
    rw [hid, htag, Expr.loc_relocate]
    cases v.mapKey? with
    | none => exact fail rfl key.loc
    | some id =>
      refine bind (hvalue frame) fun _ _ hv' => ih hrest ?_
      exact .map₂ (f := fun e t => ExtTreeMap.insert t id e)
        (fun ρ e t => insert_recode ρ id e t)
        (.map₂ (f := MapEntry.mk) (fun _ _ _ => rfl) hv hv') htable

theorem mapLiteral {entries : List Entry}
    (h : ∀ e ∈ entries, r.FollowsExpr ev₁ ev₂ depth jumps e.key ∧
      r.FollowsExpr ev₁ ev₂ depth jumps e.value) (frame : FrameId) :
    r.Follows depth jumps (ev₁.mapLiteral entries frame)
      (ev₂.mapLiteral (relocateEntries r.move entries) frame) :=
  bind (entriesFrom h frame .emptyTable) fun _ _ htable =>
    onHeap fun _ _ hheap => .map₂ (f := Heap.newMap) Heap.newMap_recode hheap
      htable

theorem fieldsFrom {fields : List Field} (d : StructDef)
    (h : ∀ f ∈ fields, r.FollowsExpr ev₁ ev₂ depth jumps f.value)
    (frame : FrameId) {table table' : ExtTreeMap String Value}
    (htable : r.Related table table') :
    r.Follows depth jumps (ev₁.fieldsFrom frame d fields table)
      (ev₂.fieldsFrom frame d (relocateFields r.move fields) table') := by
  rw [relocateFields_eq_map]
  induction fields generalizing table table' with
  | nil => exact pure htable
  | cons field fields ih =>
    have hvalue := h field List.mem_cons_self
    have hrest := fun f hf => h f (List.mem_cons_of_mem field hf)
    obtain ⟨name, value⟩ := field
    have hhas : table'.contains name.text = table.contains name.text := by
      rw [← htable.moved, contains_recode]
    change r.Follows depth jumps
      (ev₁.fieldsFrom frame d (⟨name, value⟩ :: fields) table)
      (ev₂.fieldsFrom frame d (⟨name.relocate r.move, value.relocate r.move⟩ ::
        fields.map (Field.relocate r.move)) table')
    simp only [Evaluator.fieldsFrom, Name.relocate, hhas]
    refine ite (fun _ => ?_) fun _ => fail rfl name.loc
    refine bind (hvalue frame) fun _ _ hv => ih hrest ?_
    exact .map₂ (f := fun v t => ExtTreeMap.insert t name.text v)
      (fun ρ v t => insert_recode ρ name.text v t) hv htable

theorem recordLiteral (struct : Name) {fields : List Field}
    (h : ∀ f ∈ fields, r.FollowsExpr ev₁ ev₂ depth jumps f.value)
    (frame : FrameId) :
    r.Follows depth jumps (ev₁.recordLiteral struct fields frame)
      (ev₂.recordLiteral (struct.relocate r.move) (relocateFields r.move fields)
        frame) := by
  refine bind (lookup? frame struct.text) fun x y hfound => ?_
  rcases hfound.cases_option with ⟨rfl, rfl⟩ | ⟨v, w, rfl, rfl, hvalue⟩
  · exact fail rfl struct.loc
  · obtain ⟨rfl, -⟩ := hvalue
    cases v with
    | struct d =>
      have hblank :
          r.Related (ExtTreeMap.ofList (d.fields.map fun name => (name, Value.null)))
            (ExtTreeMap.ofList (d.fields.map fun name => (name, Value.null))) := by
        constructor <;> simp [← ofList_recode, recode_list, Function.comp_def]
      refine bind (fieldsFrom d h frame hblank) fun fields fields' hfields => ?_
      exact onHeap fun _ _ hheap => .map₂ (f := Heap.newRecord)
        Heap.newRecord_recode hheap
        (.map (f := Record.mk d) (fun _ _ => rfl) hfields)
    | _ => exact fail rfl struct.loc

theorem index {left index : Expr}
    (hleft : r.FollowsExpr ev₁ ev₂ depth jumps left)
    (hindex : r.FollowsExpr ev₁ ev₂ depth jumps index) (loc : Location)
    (frame : FrameId) :
    r.Follows depth jumps (ev₁.index left index loc frame)
      (ev₂.index (left.relocate r.move) (index.relocate r.move) (r.move loc)
        frame) :=
  bind (hleft frame) fun _ _ hc => bind (hindex frame) fun _ _ hi =>
    askHeap fun _ _ hheap =>
      .map₃ (f := Heap.element) Heap.element_recode hheap hc hi

theorem slice {left : Expr} {start stop : Option Expr}
    (hleft : r.FollowsExpr ev₁ ev₂ depth jumps left)
    (hstart : ∀ e ∈ start, r.FollowsExpr ev₁ ev₂ depth jumps e)
    (hstop : ∀ e ∈ stop, r.FollowsExpr ev₁ ev₂ depth jumps e) (loc : Location)
    (frame : FrameId) :
    r.Follows depth jumps (ev₁.slice left start stop loc frame)
      (ev₂.slice (left.relocate r.move) (relocateExpr? r.move start)
        (relocateExpr? r.move stop) (r.move loc) frame) := by
  refine bind (hleft frame) fun v v' hv => ?_
  refine bind (optional hstart frame) fun a a' ha => ?_
  refine bind (optional hstop frame) fun b b' hb => ?_
  refine bind (askHeap fun h₁ h₂ hheap => ?_) fun _ _ hanswer => take hanswer
  have hbounds := Related.pair ha hb
  exact .map₃ (f := fun h v (bounds : Option Value × Option Value) =>
      h.slice v bounds.1 bounds.2)
    (fun ρ h v bounds => Heap.slice_recode ρ h v bounds.1 bounds.2) hheap hv
    hbounds

theorem member {object : Expr} (property : Name)
    (h : r.FollowsExpr ev₁ ev₂ depth jumps object) (loc : Location)
    (frame : FrameId) :
    r.Follows depth jumps (ev₁.member object property loc frame)
      (ev₂.member (object.relocate r.move) (property.relocate r.move)
        (r.move loc) frame) :=
  bind (h frame) fun _ _ hv => askHeap fun _ _ hheap =>
    .map₂ (f := fun h v => h.member v property.text)
      (fun ρ h v => Heap.member_recode ρ h v property.text) hheap hv

theorem range {start stop : Expr}
    (hstart : r.FollowsExpr ev₁ ev₂ depth jumps start)
    (hstop : r.FollowsExpr ev₁ ev₂ depth jumps stop) (loc : Location)
    (frame : FrameId) :
    r.Follows depth jumps (ev₁.range start stop loc frame)
      (ev₂.range (start.relocate r.move) (stop.relocate r.move) (r.move loc)
        frame) := by
  refine bind (hstart frame) fun v v' hv => bind (hstop frame) fun w w' hw => ?_
  obtain ⟨rfl, -⟩ := hv
  obtain ⟨rfl, -⟩ := hw
  cases v with
  | int a =>
    cases w with
    | int b => exact pure ⟨rfl, rfl⟩
    | _ => exact fail rfl loc
  | _ => cases w <;> exact fail rfl loc

/-! ### Built-in functions that call -/

section

variable {n : Nat}

theorem mapEach (happly : r.FollowsApply ev₁ ev₂ depth n) (hn : 1 < n)
    {f f' : Value} (hf : r.Related f f') (loc : Location)
    {items items' : List Value} (hitems : r.Related items items')
    {results results' : Array Value} (hresults : r.Related results results') :
    r.Follows depth noJump (ev₁.mapEach f loc items results)
      (ev₂.mapEach f' (r.move loc) items' results') := by
  induction items generalizing items' results results' with
  | nil =>
    obtain ⟨rfl, -⟩ := hitems
    exact pure hresults
  | cons item items ih =>
    obtain ⟨item', _, rfl, hitem, hrest⟩ := hitems.of_cons
    exact bind (happly loc hf (hitem.cons .nil) hn) fun _ _ hv =>
      ih hrest (hresults.push hv)

theorem filterEach (happly : r.FollowsApply ev₁ ev₂ depth n) (hn : 1 < n)
    {f f' : Value} (hf : r.Related f f') (loc : Location)
    {items items' : List Value} (hitems : r.Related items items')
    {kept kept' : Array Value} (hkept : r.Related kept kept') :
    r.Follows depth noJump (ev₁.filterEach f loc items kept)
      (ev₂.filterEach f' (r.move loc) items' kept') := by
  induction items generalizing items' kept kept' with
  | nil =>
    obtain ⟨rfl, -⟩ := hitems
    exact pure hkept
  | cons item items ih =>
    obtain ⟨item', _, rfl, hitem, hrest⟩ := hitems.of_cons
    refine bind (happly loc hf (hitem.cons .nil) hn) fun _ _ hv => ?_
    exact bindPlain (truthy hv) fun _ =>
      ite (fun _ => ih hrest (hkept.push hitem)) fun _ => ih hrest hkept

theorem reduceEach (happly : r.FollowsApply ev₁ ev₂ depth n) (hn : 2 < n)
    {f f' : Value} (hf : r.Related f f') (loc : Location)
    {items items' : List Value} (hitems : r.Related items items')
    {result result' : Value} (hresult : r.Related result result') :
    r.Follows depth noJump (ev₁.reduceEach f loc items result)
      (ev₂.reduceEach f' (r.move loc) items' result') := by
  induction items generalizing items' result result' with
  | nil =>
    obtain ⟨rfl, -⟩ := hitems
    exact pure hresult
  | cons item items ih =>
    obtain ⟨item', _, rfl, hitem, hrest⟩ := hitems.of_cons
    exact bind (happly loc hf (hresult.cons (hitem.cons .nil)) hn) fun _ _ hv =>
      ih hrest hv

/-- The items and the function of a call of `map`, `filter` or `reduce`. -/
theorem withItems (b : Builtin) {items items' f f' : Value}
    (hitems : r.Related items items') (hf : r.Related f f') (loc : Location)
    {c₁ c₂ : List Value × Value → Eval Value}
    (hc : ∀ items items' f f', r.Related items items' → r.Related f f' →
      r.Follows depth jumps (c₁ (items, f)) (c₂ (items', f'))) :
    r.Follows depth jumps (Evaluator.itemsAndFunction b items f loc >>= c₁)
      (Evaluator.itemsAndFunction b items' f' (r.move loc) >>= c₂) :=
  bind (itemsAndFunction b hitems hf loc) fun x y hxy =>
    hc x.1 y.1 x.2 y.2 hxy.fst hxy.snd

theorem mapArray (happly : r.FollowsApply ev₁ ev₂ depth n)
    {args args' : List Value} (hn : min args.length 3 ≤ n)
    (h : r.Related args args') (loc : Location) :
    r.Follows depth noJump (ev₁.mapArray loc args)
      (ev₂.mapArray (r.move loc) args') := by
  obtain ⟨rfl, hguarded⟩ := h
  match args with
  | [] | [_] | _ :: _ :: _ :: _ => exact wrongCount ⟨rfl, hguarded⟩ loc
  | [items, f] =>
    obtain ⟨hitems, hf, -⟩ : recode r.guard items = items ∧
        recode r.guard f = f ∧ True := by simpa using hguarded
    exact withItems .map ⟨rfl, hitems⟩ ⟨rfl, hf⟩ loc fun _ _ _ _ hi hf =>
      newArray (mapEach happly hn hf loc hi .empty)

theorem filterArray (happly : r.FollowsApply ev₁ ev₂ depth n)
    {args args' : List Value} (hn : min args.length 3 ≤ n)
    (h : r.Related args args') (loc : Location) :
    r.Follows depth noJump (ev₁.filterArray loc args)
      (ev₂.filterArray (r.move loc) args') := by
  obtain ⟨rfl, hguarded⟩ := h
  match args with
  | [] | [_] | _ :: _ :: _ :: _ => exact wrongCount ⟨rfl, hguarded⟩ loc
  | [items, f] =>
    obtain ⟨hitems, hf, -⟩ : recode r.guard items = items ∧
        recode r.guard f = f ∧ True := by simpa using hguarded
    exact withItems .filter ⟨rfl, hitems⟩ ⟨rfl, hf⟩ loc fun _ _ _ _ hi hf =>
      newArray (filterEach happly hn hf loc hi .empty)

theorem reduceArray (happly : r.FollowsApply ev₁ ev₂ depth n)
    {args args' : List Value} (hn : min args.length 3 ≤ n)
    (h : r.Related args args') (loc : Location) :
    r.Follows depth noJump (ev₁.reduceArray loc args)
      (ev₂.reduceArray (r.move loc) args') := by
  obtain ⟨rfl, hguarded⟩ := h
  match args with
  | [] | [_] | [_, _] | _ :: _ :: _ :: _ :: _ =>
    exact wrongCount ⟨rfl, hguarded⟩ loc
  | [items, f, start] =>
    obtain ⟨hitems, hf, hstart, -⟩ : recode r.guard items = items ∧
        recode r.guard f = f ∧ recode r.guard start = start ∧ True := by
      simpa using hguarded
    exact withItems .reduce ⟨rfl, hitems⟩ ⟨rfl, hf⟩ loc fun _ _ _ _ hi hf =>
      reduceEach happly hn hf loc hi ⟨rfl, hstart⟩

theorem callBuiltin (happly : r.FollowsApply ev₁ ev₂ depth n) (f : Builtin)
    {args args' : List Value} (hn : min args.length 3 ≤ n)
    (h : r.Related args args') (loc : Location) :
    r.Follows depth noJump (ev₁.callBuiltin f args loc)
      (ev₂.callBuiltin f args' (r.move loc)) := by
  unfold Evaluator.callBuiltin
  cases hask : f.reply? with
  | some ask => exact replyOf (Builtin.reply?_recode hask) h loc
  | none =>
    cases f with
    | push => exact push h loc
    | pop => exact pop h loc
    | map => exact mapArray happly hn h loc
    | filter => exact filterArray happly hn h loc
    | reduce => exact reduceArray happly hn h loc
    | input => exact input h loc
    | print => exact printLine h
    | _ => cases hask

/-! ### Calls -/

variable (hsides : r.Sides ev₁ ev₂ depth n)
include hsides

theorem runBody {f f' : Closure} (hf : r.Related f f')
    {args args' : List Value} (hargs : r.Related args args')
    {receiver receiver' : Option Value} (hreceiver : r.Related receiver receiver')
    (loc : Location) (frame : FrameId) :
    r.Follows depth noJump (ev₁.runBody f args receiver loc frame)
      (ev₂.runBody f' args' receiver' (r.move loc) frame) := by
  unfold Evaluator.runBody
  rw [hf.name_eq, hf.code_eq, Function.params_relocate, Function.body_relocate]
  have hbody : r.Follows depth noJump
      (do
        Eval.bindParams f.name f.code.params args frame loc
        Eval.inCall ev₁.settings.callLimit f.name loc
          (Eval.complete (ev₁.block f.code.body frame)))
      (do
        Eval.bindParams f.name (f.code.params.relocate r.move) args' frame
          (r.move loc)
        Eval.inCall ev₂.settings.callLimit f.name (r.move loc)
          (Eval.complete (ev₂.block (f.code.body.relocate r.move) frame))) :=
    bindPlain (bindParams f.name f.code.params hargs frame loc) fun _ =>
      inCall hsides.limit (fun hdepth => complete
          (block (hsides.function hdepth f.code hf.code_guarded) frame))
        fun hlimit => hsides.refused hlimit f.name
  rcases hreceiver.cases_option with ⟨rfl, rfl⟩ | ⟨v, w, rfl, rfl, hvalue⟩
  · exact hbody
  · exact bindPlain (define frame "self" hvalue) fun _ => hbody

theorem callFunction {f f' : Closure} (hf : r.Related f f')
    {args args' : List Value} (hargs : r.Related args args')
    {receiver receiver' : Option Value} (hreceiver : r.Related receiver receiver')
    (loc : Location) :
    r.Follows depth noJump (ev₁.callFunction f args receiver loc)
      (ev₂.callFunction f' args' receiver' (r.move loc)) := by
  have hcount : f'.code.params.count = f.code.params.count := by
    rw [hf.code_eq, Function.params_relocate, Params.count_relocate]
  unfold Evaluator.callFunction
  rw [hcount, ← hargs.length_eq, hf.frame_eq, hf.name_eq]
  refine ite (fun _ => ?_) fun _ => fail rfl loc
  exact bind (inChild fun frame => runBody hsides hf hargs hreceiver loc frame)
    fun _ _ hc => checkReturn hf hc loc

theorem callArrow {f f' : ArrowClosure} (hf : r.Related f f')
    {args args' : List Value} (hargs : r.Related args args') (loc : Location) :
    r.Follows depth noJump (ev₁.callArrow f args loc)
      (ev₂.callArrow f' args' (r.move loc)) := by
  obtain ⟨rfl, hguarded⟩ := hf
  have hbody : r.guard.body f.body = f.body :=
    congrArg ArrowClosure.body hguarded
  have hcount : (f.params.map (Name.relocate r.move)).length = f.params.length :=
    List.length_map _
  change r.Follows depth noJump (ev₁.callArrow f args loc)
    (ev₂.callArrow ⟨f.id, f.params.map (Name.relocate r.move),
      f.body.relocate r.move, f.frame⟩ args' (r.move loc))
  simp only [Evaluator.callArrow, hcount, ← hargs.length_eq]
  refine ite (fun _ => ?_) fun _ => fail rfl loc
  refine mapResult (inCall hsides.limit (fun hdepth => inChild fun frame => ?_)
    fun hlimit => hsides.refused hlimit _)
    fun _ _ hc => .map (f := Completion.value) (fun _ _ => rfl) hc
  exact bindPlain (bindNames frame f.params hargs) fun _ =>
    complete (hsides.arrow hdepth f.body hbody frame)

/-- Calls of values, with as many arguments as built-in functions may pass on. -/
theorem call {callee callee' : Value} (hcallee : r.Related callee callee')
    {args args' : List Value} (hn : min args.length 3 ≤ n)
    (hargs : r.Related args args') (loc : Location) :
    r.Follows depth noJump (ev₁.call callee args loc)
      (ev₂.call callee' args' (r.move loc)) := by
  obtain ⟨rfl, hguarded⟩ := hcallee
  cases callee with
  | function f =>
    exact callFunction hsides ⟨rfl, Value.function.inj hguarded⟩ hargs .none loc
  | arrow f =>
    exact callArrow hsides ⟨rfl, Value.arrow.inj hguarded⟩ hargs loc
  | builtin f => exact callBuiltin hsides.apply f hn hargs loc
  | _ => exact fail rfl loc

end

variable (hsides : r.Sides ev₁ ev₂ depth 3)
include hsides

theorem callAny {callee callee' : Value} (hcallee : r.Related callee callee')
    {args args' : List Value} (hargs : r.Related args args') (loc : Location) :
    r.Follows depth noJump (ev₁.call callee args loc)
      (ev₂.call callee' args' (r.move loc)) :=
  call hsides hcallee (Nat.min_le_right _ _) hargs loc

theorem callFree {free free' : Option Value} (hfree : r.Related free free')
    {receiver receiver' : Value} (hreceiver : r.Related receiver receiver')
    {args args' : List Value} (hargs : r.Related args args') {problem : Problem}
    (hproblem : recode r.guard problem = problem) (loc : Location) :
    r.Follows depth noJump (ev₁.callFree free receiver args problem loc)
      (ev₂.callFree free' receiver' args' problem (r.move loc)) := by
  rcases hfree.cases_option with ⟨rfl, rfl⟩ | ⟨f, f', rfl, rfl, hf⟩
  · exact fail hproblem loc
  · exact callAny hsides hf (hreceiver.cons hargs) loc

theorem callMember {receiver receiver' : Value}
    (hreceiver : r.Related receiver receiver') (name : String)
    {args args' : List Value} (hargs : r.Related args args') (frame : FrameId)
    (loc : Location) :
    r.Follows depth noJump (ev₁.callMember receiver name args frame loc)
      (ev₂.callMember receiver' name args' frame (r.move loc)) := by
  refine bind (freeFunction? frame name) fun free free' hfree => ?_
  have hplain : ∀ v : Value, r.Related v v →
      r.Follows depth noJump
        (ev₁.callFree free v args (.memberAccess v.tag name) loc)
        (ev₂.callFree free' v args' (.memberAccess v.tag name) (r.move loc)) :=
    fun v hv => callFree hsides hfree hv hargs rfl loc
  obtain ⟨rfl, hguarded⟩ := hreceiver
  cases receiver with
  | record cell =>
    have hself : r.Related (Value.record cell) (Value.record cell) := ⟨rfl, rfl⟩
    refine bind (read fun _ _ hagree => .map (f := (·.instanceAt cell))
      (fun ρ h => Heap.instanceAt_recode ρ h cell) hagree.heap)
      fun a a' ha => ?_
    obtain ⟨rfl, hrecord⟩ := ha
    refine bind (read fun _ _ hagree => .map
      (f := fun h => (h.methodsOf a.struct)[name]?)
      (fun ρ h => by rw [Heap.methodsOf_recode, lookup_recode]) hagree.heap)
      fun x y hmethod => ?_
    rcases hmethod.cases_option with ⟨rfl, rfl⟩ | ⟨f, f', rfl, rfl, hf⟩
    · have hfields : r.Related a.fields (recode (.relocation r.move) a.fields) :=
        ⟨rfl, congrArg Record.fields hrecord⟩
      have hfield : r.Related (a.fields[name]?.filter Value.isCallable)
          ((recode (.relocation r.move) a.fields)[name]?.filter
            Value.isCallable) :=
        .map (f := fun fields : ExtTreeMap String Value =>
          fields[name]?.filter Value.isCallable) (fun ρ fields => by
            rw [lookup_recode]
            rcases fields[name]? with _ | v
            · rfl
            · simp only [recode_some, Option.filter_some, Value.isCallable_recode]
              split <;> rfl) hfields
      simp only [Heap.fields_recode]
      rcases hfield.cases_option with
        ⟨hfirst, hsecond⟩ | ⟨f, f', hfirst, hsecond, hf⟩
      · rw [hfirst, hsecond]
        exact callFree hsides hfree hself hargs rfl loc
      · rw [hfirst, hsecond]
        exact callAny hsides hf hargs loc
    · exact callFunction hsides hf hargs hself.some loc
  | struct d =>
    refine bind (read fun _ _ hagree => .map
      (f := fun h => (h.methodsOf d)[name]?)
      (fun ρ h => by rw [Heap.methodsOf_recode, lookup_recode]) hagree.heap)
      fun x y hmethod => ?_
    rcases hmethod.cases_option with ⟨rfl, rfl⟩ | ⟨f, f', rfl, rfl, hf⟩
    · exact hplain (.struct d) ⟨rfl, rfl⟩
    · exact callFunction hsides hf hargs .none loc
  | map cell =>
    refine bind (read fun _ _ hagree => .map
      (f := fun h => h.entry cell (Value.textKey name))
      (fun ρ h => Heap.entry_recode ρ h cell _) hagree.heap) fun v w hv => ?_
    have hcallable : w.isCallable = v.isCallable := by
      rw [← hv.moved, Value.isCallable_recode]
    rw [hcallable]
    exact ite (fun _ => callAny hsides hv hargs loc) fun _ =>
      hplain (.map cell) ⟨rfl, rfl⟩
  | function f =>
    exact callFree hsides hfree ⟨rfl, hguarded⟩ hargs rfl loc
  | arrow f =>
    exact callFree hsides hfree ⟨rfl, hguarded⟩ hargs rfl loc
  | _ => exact hplain _ ⟨rfl, rfl⟩

end Follows

/-- What is evaluated to find out what is called: the object of a member. -/
def calleePart : Expr → Expr
  | .member object _ _ => object
  | callee => callee

namespace Follows

theorem callExpr (hsides : r.Sides ev₁ ev₂ depth 3) {callee : Expr}
    {args : List Expr}
    (hcallee : r.FollowsExpr ev₁ ev₂ depth jumps (calleePart callee))
    (hargs : ∀ e ∈ args, r.FollowsExpr ev₁ ev₂ depth jumps (unspread e))
    (loc : Location) (frame : FrameId) :
    r.Follows depth jumps (ev₁.callExpr callee args loc frame)
      (ev₂.callExpr (callee.relocate r.move) (relocateExprs r.move args)
        (r.move loc) frame) := by
  cases callee with
  | member object property =>
    refine bind (hcallee frame) fun v w hv => ?_
    refine bind (elementsFrom hargs frame .empty) fun xs ys hxs => ?_
    exact (callMember hsides hv property.text hxs.toList frame loc).weaken nofun
  | _ =>
    refine bind (hcallee frame) fun v w hv => ?_
    refine bind (elementsFrom hargs frame .empty) fun xs ys hxs => ?_
    exact (callAny hsides hv hxs.toList loc).weaken nofun

/-! ### Loops -/

theorem bindLoopNames (names : LoopNames) (frame : FrameId) (keyed : Bool)
    {k k' v v' : Value} (hk : r.Related k k') (hv : r.Related v v') :
    r.Follows depth jumps (names.bind frame keyed k v)
      (names.bind frame keyed k' v') := by
  cases names with
  | one name =>
    refine define frame name ?_
    split
    · exact hk
    · exact hv
  | two first second =>
    exact bindPlain (define frame first hk) fun _ => define frame second hv

section

variable {inner : Jump → Prop} {body : Block}
  (hbody : r.FollowsBlock ev₁ ev₂ depth inner body)
  (hret : inner .ret → jumps .ret)
include hbody hret

theorem roundWith (names : LoopNames) (frame : FrameId) (keyed : Bool)
    {k k' v v' : Value} (hk : r.Related k k') (hv : r.Related v v') :
    r.Follows depth jumps (ev₁.roundWith names body frame keyed k v)
      (ev₂.roundWith names (body.relocate r.move) frame keyed k' v') :=
  inChild fun scope => bindPlain (bindLoopNames names scope keyed hk hv) fun _ =>
    goesOn (block hbody scope) hret

theorem walkPairs (names : LoopNames) (frame : FrameId) (keyed : Bool)
    {pairs pairs' : List (Value × Value)} (h : r.Related pairs pairs') :
    r.Follows depth jumps (ev₁.walkPairs names body frame keyed pairs)
      (ev₂.walkPairs names (body.relocate r.move) frame keyed pairs') := by
  induction pairs generalizing pairs' with
  | nil =>
    obtain ⟨rfl, -⟩ := h
    exact pure ⟨rfl, rfl⟩
  | cons pair pairs ih =>
    obtain ⟨pair', _, rfl, hpair, hrest⟩ := h.of_cons
    refine bindPlain (roundWith hbody hret names frame keyed hpair.fst hpair.snd)
      fun _ => ?_
    exact ite (fun _ => ih hrest) fun _ => pure ⟨rfl, rfl⟩

theorem walkNumbers (names : LoopNames) (frame : FrameId) (stop : Int64) (i : Nat)
    (number : Int64) :
    r.Follows depth jumps (ev₁.walkNumbers names body frame stop i number)
      (ev₂.walkNumbers names (body.relocate r.move) frame stop i number) := by
  induction number using Range.way_induction stop generalizing i with
  | arrived =>
    rw [Evaluator.walkNumbers_stop, Evaluator.walkNumbers_stop]
    exact pure ⟨rfl, rfl⟩
  | onTheWay number hne ih =>
    rw [Evaluator.walkNumbers_of_ne ev₁ hne, Evaluator.walkNumbers_of_ne ev₂ hne]
    refine bindPlain (roundWith hbody hret names frame false ⟨rfl, rfl⟩ ⟨rfl, rfl⟩)
      fun _ => ?_
    exact ite (fun _ => ih (i + 1)) fun _ => pure ⟨rfl, rfl⟩

theorem forEach (names : LoopNames) {iterable : Expr}
    (hiterable : r.FollowsExpr ev₁ ev₂ depth jumps iterable) (frame : FrameId) :
    r.Follows depth jumps (ev₁.forEach names iterable body frame)
      (ev₂.forEach names (iterable.relocate r.move) (body.relocate r.move)
        frame) := by
  refine bind (hiterable frame) fun v w hv => ?_
  rw [Expr.loc_relocate]
  refine bind (askHeap fun _ _ hheap => .map₂ (f := Heap.walk)
    (fun ρ h v => Heap.walk_recode ρ h v) hheap hv) fun walk walk' hwalk => ?_
  obtain ⟨rfl, hguarded⟩ := hwalk
  cases walk with
  | items pairs =>
    exact walkPairs hbody hret names frame false ⟨rfl, Walk.items.inj hguarded⟩
  | entries pairs =>
    exact walkPairs hbody hret names frame true ⟨rfl, Walk.entries.inj hguarded⟩
  | numbers start stop =>
    exact walkNumbers hbody hret names frame stop 0 start

theorem round (frame : FrameId) :
    r.Follows depth jumps (ev₁.round body frame)
      (ev₂.round (body.relocate r.move) frame) :=
  inChild fun scope => goesOn (block hbody scope) hret

end

end Follows

theorem BoundLeft.pred {n n' : Nat} (h : r.BoundLeft (n + 1) n') :
    ∃ k, n' = k + 1 ∧ r.BoundLeft n k := by
  rcases h with rfl | ⟨halone, hle⟩
  · exact ⟨n, rfl, Or.inl rfl⟩
  · exact ⟨n' - 1, by omega, Or.inr ⟨halone, by omega⟩⟩

namespace Follows

/-- At the end of its bound the first run stops, and if it may stop alone it does
not matter what the second one does. -/
theorem atBound {n' : Nat} (hn : r.BoundLeft 0 n') (hstop : r.stopping ≠ .never)
    {c : Nat → Eval Value} (hc : c 0 = Eval.outOfBound) :
    r.Follows depth jumps (Eval.outOfBound : Eval Value) (c n') := by
  rcases hn with rfl | ⟨halone, -⟩
  · rw [hc]
    exact outOfBound hstop
  · intro _ _ _
    refine .exhausted ?_
    rw [halone]
    trivial

section

variable {inner : Jump → Prop} {body : Block}
  (hbody : r.FollowsBlock ev₁ ev₂ depth inner body)
  (hret : inner .ret → jumps .ret) (hstop : r.stopping ≠ .never)
include hbody hret hstop

theorem whileRounds {condition : Expr}
    (hcondition : r.FollowsExpr ev₁ ev₂ depth jumps condition)
    (frame : FrameId) {n n' : Nat} (hn : r.BoundLeft n n') :
    r.Follows depth jumps (ev₁.whileRounds condition body frame n)
      (ev₂.whileRounds (condition.relocate r.move) (body.relocate r.move) frame
        n') := by
  induction n generalizing n' with
  | zero => exact atBound hn hstop rfl
  | succ n ih =>
    obtain ⟨k, rfl, hk⟩ := hn.pred
    refine bindPlain (holds hcondition frame) fun _ => ?_
    refine ite (fun _ => ?_) fun _ => pure ⟨rfl, rfl⟩
    refine bindPlain (round hbody hret frame) fun _ => ?_
    exact ite (fun _ => ih hk) fun _ => pure ⟨rfl, rfl⟩

theorem countingRounds {condition update : Option Expr}
    (hcondition : ∀ e ∈ condition, r.FollowsExpr ev₁ ev₂ depth jumps e)
    (hupdate : ∀ e ∈ update, r.FollowsExpr ev₁ ev₂ depth jumps e)
    (frame : FrameId) {n n' : Nat} (hn : r.BoundLeft n n') :
    r.Follows depth jumps (ev₁.countingRounds condition update body frame n)
      (ev₂.countingRounds (relocateExpr? r.move condition)
        (relocateExpr? r.move update) (body.relocate r.move) frame n') := by
  have hcontinues : r.Follows depth jumps (ev₁.continues condition frame)
      (ev₂.continues (relocateExpr? r.move condition) frame) := by
    cases condition with
    | none => exact pure (.codeless true)
    | some e => exact holds (hcondition e rfl) frame
  induction n generalizing n' with
  | zero => exact atBound hn hstop rfl
  | succ n ih =>
    obtain ⟨k, rfl, hk⟩ := hn.pred
    refine bindPlain hcontinues fun _ => ?_
    refine ite (fun _ => ?_) fun _ => pure ⟨rfl, rfl⟩
    refine bindPlain (round hbody hret frame) fun _ => ?_
    refine ite (fun _ => ?_) fun _ => pure ⟨rfl, rfl⟩
    exact bind (optional hupdate frame) fun _ _ _ => ih hk

theorem countingLoop (halike : r.Alike ev₁ ev₂)
    {start : Option Stmt} {condition update : Option Expr}
    (hstart : ∀ s ∈ start, r.FollowsStmt ev₁ ev₂ depth jumps s)
    (hcondition : ∀ e ∈ condition, r.FollowsExpr ev₁ ev₂ depth jumps e)
    (hupdate : ∀ e ∈ update, r.FollowsExpr ev₁ ev₂ depth jumps e)
    (frame : FrameId) :
    r.Follows depth jumps (ev₁.countingLoop start condition update body frame)
      (ev₂.countingLoop (relocateStmt? r.move start)
        (relocateExpr? r.move condition) (relocateExpr? r.move update)
        (body.relocate r.move) frame) := by
  refine inChild fun scope => ?_
  have hrounds := countingRounds hbody hret hstop hcondition hupdate scope
    halike.rounds
  cases start with
  | none => exact bindPlain (pure (.codeless ())) fun _ => hrounds
  | some s => exact bind (hstart s rfl scope) fun _ _ _ => hrounds

end

/-- A computation that only notices something, and only at the place. -/
def Notes (loc : Location) (c : Eval Unit) : Prop :=
  ∀ m, ∃ noted, c m = .done () { m with advisories := noted } ∧
    ∀ d ∈ noted, d ∈ m.advisories ∨ d.location? = some loc

theorem notes_pure (loc : Location) : Notes loc (Pure.pure ()) :=
  fun m => ⟨m.advisories, rfl, fun _ => Or.inl⟩

theorem notes_advise (problem : Problem) (loc : Location) :
    Notes loc (Eval.advise problem loc) :=
  fun m => ⟨_, Eval.advise_eq problem loc m, fun _ => Eval.mem_noted⟩

/-- Where it does not matter what is noticed, it may be different in the two runs. -/
theorem noticing {c₁ c₂ : Eval Unit} {loc₁ loc : Location} (h₁ : Notes loc₁ c₁)
    (h₂ : Notes (r.move loc) c₂) (hexact : ¬ r.exact) :
    r.Follows depth jumps c₁ c₂ := by
  intro m₁ m₂ hagree
  obtain ⟨noted₁, hfirst, -⟩ := h₁ m₁
  obtain ⟨noted₂, hsecond, hplaces⟩ := h₂ m₂
  rw [hfirst, hsecond]
  refine .done (.codeless ())
    (hagree.noting (fun h => (hexact h).elim) fun d hd => ?_)
  rcases hplaces d hd with hd | hloc
  · exact hagree.placed d hd
  · rw [hloc]
    exact r.placed_move loc

/-- A note that is made if something is so of the code of a run.  That may be
different in the two runs where notes do not matter. -/
theorem noteIf {α : Type} [Recodable α] {b₁ b₂ : Bool} {p : Problem}
    {loc : Location} {c₁ c₂ : Eval α} (hsame : r.exact → b₁ = b₂)
    (hc : r.Follows depth jumps c₁ c₂) :
    r.Follows depth jumps
      (if b₁ then do Eval.advise p loc; c₁ else c₁)
      (if b₂ then do Eval.advise p (r.move loc); c₂ else c₂) := by
  have hsplit : ∀ (b : Bool) (loc : Location) (c : Eval α),
      (if b then do Eval.advise p loc; c else c) =
        ((if b then Eval.advise p loc else Pure.pure ()) >>= fun _ => c) := by
    intro b loc c
    cases b <;> rfl
  have hnotes : ∀ (b : Bool) (loc : Location),
      Notes loc (if b then Eval.advise p loc else Pure.pure ()) := by
    intro b loc
    cases b
    · exact notes_pure loc
    · exact notes_advise p loc
  rw [hsplit, hsplit]
  refine bindPlain ?_ fun _ => hc
  by_cases hexact : r.exact
  · obtain rfl := hsame hexact
    exact ite (fun _ => advise p loc) fun _ => pure (.codeless ())
  · exact noticing (hnotes b₁ loc) (hnotes b₂ _) hexact

theorem whileLoop (halike : r.Alike ev₁ ev₂) {condition : Expr} {body : Block}
    {inner : Jump → Prop}
    (hcondition : r.FollowsExpr ev₁ ev₂ depth jumps condition)
    (hbody : r.FollowsBlock ev₁ ev₂ depth inner body)
    (hret : inner .ret → jumps .ret) (hstop : r.stopping ≠ .never)
    (loc : Location) (frame : FrameId) :
    r.Follows depth jumps (ev₁.whileLoop condition body loc frame)
      (ev₂.whileLoop (condition.relocate r.move) (body.relocate r.move)
        (r.move loc) frame) := by
  refine noteIf (fun hexact => ?_) (inLoop
    (whileRounds hbody hret hstop hcondition frame halike.rounds))
  rw [r.exact_move hexact, Expr.relocate_id, Block.relocate_id]

theorem forLoop (halike : r.Alike ev₁ ev₂) {header : LoopHeader} {body : Block}
    {inner : Jump → Prop}
    (hheader : ∀ p, (.beside, p) ∈ Piece.ofHeader header →
      match p with
      | .expr e => r.FollowsExpr ev₁ ev₂ depth jumps e
      | .stmt s => r.FollowsStmt ev₁ ev₂ depth jumps s)
    (hbody : r.FollowsBlock ev₁ ev₂ depth inner body)
    (hret : inner .ret → jumps .ret)
    (hstop : (∃ start condition update,
      header = .counting start condition update) → r.stopping ≠ .never)
    (loc : Location) (frame : FrameId) :
    r.Follows depth jumps (ev₁.forLoop header body loc frame)
      (ev₂.forLoop (header.relocate r.move) (body.relocate r.move) (r.move loc)
        frame) := by
  refine inLoop ?_
  cases header with
  | items item iterable =>
    exact forEach hbody hret (.one item.text)
      (hheader (.expr iterable) (by simp [Piece.ofHeader, Piece.ofExprs]))
      frame
  | pairs index value iterable =>
    exact forEach hbody hret (.two index.text value.text)
      (hheader (.expr iterable) (by simp [Piece.ofHeader, Piece.ofExprs]))
      frame
  | counting start condition update =>
    refine countingLoop hbody hret (hstop ⟨start, condition, update, rfl⟩) halike
      (fun s hs => ?_) (fun e he => ?_) (fun e he => ?_) frame
    · exact hheader (.stmt s) (by
        simp [Piece.ofHeader, Option.mem_def.mp hs])
    · exact hheader (.expr e) (by
        simp [Piece.ofHeader, Piece.ofExprs, Option.mem_def.mp he])
    · exact hheader (.expr e) (by
        simp [Piece.ofHeader, Piece.ofExprs, Option.mem_def.mp he])

/-! ### Choices -/

theorem scopedBlock? {b : Option Block}
    (h : ∀ b' ∈ b, r.FollowsBlock ev₁ ev₂ depth jumps b') (frame : FrameId) :
    r.Follows depth jumps (ev₁.scopedBlock? frame b)
      (ev₂.scopedBlock? frame (relocateBlock? r.move b)) := by
  cases b with
  | none => exact pure ⟨rfl, rfl⟩
  | some b => exact scopedBlock (h b rfl) frame

theorem branch {condition : Expr} {consequence : Block}
    {alternative : Option Block}
    (hcondition : r.FollowsExpr ev₁ ev₂ depth jumps condition)
    (hconsequence : r.FollowsBlock ev₁ ev₂ depth jumps consequence)
    (halternative : ∀ b ∈ alternative, r.FollowsBlock ev₁ ev₂ depth jumps b)
    (frame : FrameId) :
    r.Follows depth jumps (ev₁.branch condition consequence alternative frame)
      (ev₂.branch (condition.relocate r.move) (consequence.relocate r.move)
        (relocateBlock? r.move alternative) frame) :=
  bindPlain (holds hcondition frame) fun _ =>
    ite (fun _ => scopedBlock hconsequence frame) fun _ =>
      scopedBlock? halternative frame

theorem ternary {condition consequence alternative : Expr}
    (hcondition : r.FollowsExpr ev₁ ev₂ depth jumps condition)
    (hconsequence : r.FollowsExpr ev₁ ev₂ depth jumps consequence)
    (halternative : r.FollowsExpr ev₁ ev₂ depth jumps alternative)
    (frame : FrameId) :
    r.Follows depth jumps (ev₁.ternary condition consequence alternative frame)
      (ev₂.ternary (condition.relocate r.move) (consequence.relocate r.move)
        (alternative.relocate r.move) frame) :=
  bindPlain (holds hcondition frame) fun _ =>
    ite (fun _ => hconsequence frame) fun _ => halternative frame

theorem selects {subject subject' : Value}
    (hsubject : r.Related subject subject') (frame : FrameId) {values : List Expr}
    (h : ∀ e ∈ values, r.FollowsExpr ev₁ ev₂ depth jumps e) :
    r.Follows depth jumps (ev₁.selects subject frame values)
      (ev₂.selects subject' frame (values.map (Expr.relocate r.move))) := by
  induction values with
  | nil => exact pure (.codeless false)
  | cons e values ih =>
    refine bind (h e List.mem_cons_self frame) fun v w hv => ?_
    refine bindPlain (read fun _ _ hagree => .map₃ (f := Heap.same)
      Heap.same_recode hagree.heap hsubject hv) fun _ => ?_
    exact ite (fun _ => pure (.codeless true)) fun _ =>
      ih fun e' he' => h e' (List.mem_cons_of_mem e he')

theorem switchCases {subject subject' : Value}
    (hsubject : r.Related subject subject') {default : Option Block}
    (hdefault : ∀ b ∈ default, r.FollowsBlock ev₁ ev₂ depth jumps b)
    (frame : FrameId) {cases : List Case}
    (h : ∀ c ∈ cases, (∀ e ∈ c.values, r.FollowsExpr ev₁ ev₂ depth jumps e) ∧
      r.FollowsBlock ev₁ ev₂ depth jumps c.body) :
    r.Follows depth jumps (ev₁.switchCases subject default frame cases)
      (ev₂.switchCases subject' (relocateBlock? r.move default) frame
        (cases.map (Case.relocate r.move))) := by
  induction cases with
  | nil => exact scopedBlock? hdefault frame
  | cons c cases ih =>
    obtain ⟨hvalues, hbody⟩ := h c List.mem_cons_self
    have hrest := fun c' hc' => h c' (List.mem_cons_of_mem c hc')
    obtain ⟨values, body, loc⟩ := c
    simp only [List.map_cons, Case.relocate, relocateExprs_eq_map]
    refine bindPlain (selects hsubject frame hvalues) fun _ => ?_
    exact ite (fun _ => scopedBlock hbody frame) fun _ => ih hrest

theorem switch {subject : Expr} {cases : List Case} {default : Option Block}
    (hsubject : r.FollowsExpr ev₁ ev₂ depth jumps subject)
    (hcases : ∀ c ∈ cases,
      (∀ e ∈ c.values, r.FollowsExpr ev₁ ev₂ depth jumps e) ∧
        r.FollowsBlock ev₁ ev₂ depth jumps c.body)
    (hdefault : ∀ b ∈ default, r.FollowsBlock ev₁ ev₂ depth jumps b)
    (frame : FrameId) :
    r.Follows depth jumps (ev₁.switch subject cases default frame)
      (ev₂.switch (subject.relocate r.move) (relocateCases r.move cases)
        (relocateBlock? r.move default) frame) := by
  rw [relocateCases_eq_map]
  exact bind (hsubject frame) fun _ _ hv => switchCases hv hdefault frame hcases

theorem attempt {t : Attempt} (hbody : r.FollowsBlock ev₁ ev₂ depth jumps t.body)
    (hhandler : ∀ b ∈ t.handler, r.FollowsBlock ev₁ ev₂ depth jumps b)
    (frame : FrameId) :
    r.Follows depth jumps (ev₁.attempt t frame)
      (ev₂.attempt (t.relocate r.move) frame) := by
  obtain ⟨body, param, handler, loc⟩ := t
  refine orElse (scopedBlock hbody frame) fun problem => ?_
  cases handler with
  | none => exact pure ⟨rfl, rfl⟩
  | some handler =>
    simp only [Attempt.relocate, relocateBlock?, Evaluator.handle]
    refine inChild fun scope => ?_
    have hblock := block (hhandler handler rfl) scope
    cases param with
    | none => exact hblock
    | some name =>
      have hmessage : r.Related (Value.str problem.message)
          (.str problem.message) := ⟨rfl, rfl⟩
      exact bindPlain (define scope name.text hmessage) fun _ => hblock

/-! ### Declarations -/

theorem notes_noteRecursion (v : Value) (loc : Location) :
    Notes loc (Eval.noteRecursion v loc) := by
  rcases Eval.noteRecursion_cases v with heq | ⟨problem, heq⟩
  · rw [heq]
    exact notes_pure loc
  · rw [heq]
    exact notes_advise problem loc

theorem noteRecursion {v w : Value} (h : r.Related v w) (loc : Location) :
    r.Follows depth jumps (Eval.noteRecursion v loc)
      (Eval.noteRecursion w (r.move loc)) := by
  by_cases hexact : r.exact
  · have hsame : w = v := by
      rw [← h.moved, r.exact_move hexact, recode_relocation_id]
    rw [hsame]
    rcases Eval.noteRecursion_cases v with heq | ⟨problem, heq⟩
    · rw [heq, heq]
      exact pure (.codeless ())
    · rw [heq, heq]
      exact advise problem loc
  · exact noticing (notes_noteRecursion v loc) (notes_noteRecursion w _) hexact

theorem declare (constant : Bool) (name : Name) (type : Option TypeExpr)
    {value : Expr} (h : r.FollowsExpr ev₁ ev₂ depth jumps value)
    (loc : Location) (frame : FrameId) :
    r.Follows depth jumps (ev₁.declare constant name type value loc frame)
      (ev₂.declare constant (name.relocate r.move)
        (type.map (TypeExpr.relocate r.move)) (value.relocate r.move)
        (r.move loc) frame) := by
  refine bind (h frame) fun v w hv => ?_
  have hbind : r.Follows depth jumps
      (do
        if ← Eval.read fun m => m.scopes.isLocalConstant frame name.text then
          Eval.fail (.constantReassignment name.text) name.loc
        else
          Eval.noteRecursion v loc
          Eval.onScopes (·.bind frame { name := name.text, value := v, constant })
          return Value.null)
      (do
        if ← Eval.read fun m => m.scopes.isLocalConstant frame name.text then
          Eval.fail (.constantReassignment name.text) (r.move name.loc)
        else
          Eval.noteRecursion w (r.move loc)
          Eval.onScopes (·.bind frame { name := name.text, value := w, constant })
          return Value.null) := by
    refine bindPlain (read fun _ _ hagree => .map
      (f := (·.isLocalConstant frame name.text))
      (fun ρ a => a.isLocalConstant_map (recode ρ) frame name.text)
      hagree.scopes) fun _ => ?_
    refine ite (fun _ => fail rfl name.loc) fun _ => ?_
    refine bindPlain (noteRecursion hv loc) fun _ => ?_
    refine bindPlain (onScopes fun _ _ hscopes => ?_) fun _ => pure ⟨rfl, rfl⟩
    exact .map₂ (f := fun (a : Arena Value) v =>
        a.bind frame { name := name.text, value := v, constant })
      (fun ρ a v => a.bind_map (recode ρ) frame
        { name := name.text, value := v, constant }) hscopes hv
  cases type with
  | none => exact hbind
  | some type =>
    exact bindPlain (checkBinding name.text type hv frame loc) fun _ => hbind

theorem leaveWith {value : Option Expr}
    (h : ∀ e ∈ value, r.FollowsExpr ev₁ ev₂ depth jumps e) (hret : jumps .ret)
    (frame : FrameId) :
    r.Follows depth jumps (ev₁.leaveWith value frame)
      (ev₂.leaveWith (relocateExpr? r.move value) frame) :=
  bind (optional h frame) fun x y hxy => leave
    (related_returned (.map (f := (·.getD Value.null)) (fun ρ x =>
      option_getD_recode ρ x .null) hxy))
    (by rintro _ ⟨⟩; exact hret)

end Follows

end Comparison

end Script
