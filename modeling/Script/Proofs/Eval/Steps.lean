import Script.Eval
import Script.Proofs.Builtin.Replies
import Script.Proofs.Eval.Comparison

/-!
# Steps side by side

The steps of evaluation in which nothing inside is evaluated follow in any
comparison: looking up names, operators, writing to places, checks of types,
declarations, and the built-in functions that do not call.
-/

namespace Script

open Scope (Arena Binding FrameId)
open Comparison

variable {r : Comparison} {depth : Nat} {jumps : Jump → Prop}

/-! ### Scopes -/

section

variable (ρ : Recoding) (a : Arena Value) (frame : FrameId) (name : String)

/-- Names are looked up alike, and what is found is recoded. -/
theorem get?_recode : (recode ρ a).get? frame name = recode ρ (a.get? frame name) :=
  a.get?_map (recode ρ) frame name

theorem set_recode (v : Value) :
    (recode ρ a).set frame name (recode ρ v) = recode ρ (a.set frame name v) :=
  a.set_map (recode ρ) frame name v

/-- Gives a name a new value where it is bound, or binds it here. -/
def assigned (a : Arena Value) (frame : FrameId) (name : String) (v : Value) :
    Arena Value :=
  let (found, scopes) := a.update frame name v
  if found then scopes else scopes.set frame name v

/-- Where a name is bound does not depend on the values. -/
theorem assigned_recode (v : Value) :
    assigned (recode ρ a) frame name (recode ρ v) =
      recode ρ (assigned a frame name v) := by
  have hupdate : (recode ρ a).update frame name (recode ρ v) =
      ((a.update frame name v).1, recode ρ (a.update frame name v).2) :=
    a.update_map (recode ρ) frame name v
  unfold assigned
  rw [hupdate]
  dsimp only
  split
  · rfl
  · exact set_recode ρ _ frame name v

/-- A name is a type if a struct or an enumeration is bound to it, neither of which has
code. -/
theorem isDeclaredType_recode :
    isDeclaredType (recode ρ a) frame name = isDeclaredType a frame name := by
  unfold isDeclaredType
  rw [get?_recode]
  rcases a.get? frame name with _ | v
  · rfl
  · cases v <;> rfl

/-- An unknown type stays unknown where the annotation has been moved to. -/
theorem unknownType?_recode (move : Location → Location) (type : TypeExpr) :
    unknownType? (recode ρ a) frame (type.relocate move) =
      (unknownType? a frame type).map (Prod.map id move) := by
  induction type with
  | named name loc =>
    simp only [TypeExpr.relocate, unknownType?, isDeclaredType_recode]
    split <;> rfl
  | array element loc ih => exact ih
  | map key value loc hkey hvalue =>
    simp only [TypeExpr.relocate, unknownType?, hkey, hvalue]
    cases unknownType? a frame value <;> rfl

end

namespace Comparison.Follows

theorem lookup? (frame : FrameId) (name : String) :
    r.Follows depth jumps (Eval.lookup? frame name) (Eval.lookup? frame name) :=
  read fun _ _ hagree => .map (f := (·.get? frame name))
    (fun ρ a => get?_recode ρ a frame name) hagree.scopes

/-- Both runs bind the name in the same frame. -/
theorem define (frame : FrameId) (name : String) {v w : Value}
    (h : r.Related v w) :
    r.Follows depth jumps (Eval.define frame name v)
      (Eval.define frame name w) :=
  onScopes fun _ _ hscopes => .map₂ (f := fun a v => a.set frame name v)
    (fun ρ a v => set_recode ρ a frame name v) hscopes h

theorem truthy {v w : Value} (h : r.Related v w) :
    r.Follows depth jumps (Eval.read fun m => m.heap.truthy v)
      (Eval.read fun m => m.heap.truthy w) :=
  read fun _ _ hagree => .map₂ (f := Heap.truthy) Heap.truthy_recode
    hagree.heap h

/-- A name that is bound nowhere may be a built-in function, which is the same in both
runs. -/
theorem nameValue (id : Name) (frame : FrameId) :
    r.Follows depth jumps (Eval.nameValue id frame)
      (Eval.nameValue (id.relocate r.move) frame) := by
  intro m₁ m₂ hagree
  have hfound : r.Related (m₁.scopes.get? frame id.text)
      (m₂.scopes.get? frame id.text) :=
    .map (f := (·.get? frame id.text))
      (fun ρ a => get?_recode ρ a frame id.text) hagree.scopes
  simp only [Eval.nameValue, Name.relocate]
  rcases hfound.cases_option with ⟨hfirst, hsecond⟩ |
    ⟨v, w, hfirst, hsecond, hvalue⟩
  · rw [hfirst, hsecond]
    cases Builtin.global? id.text with
    | some f => exact .done ⟨rfl, rfl⟩ hagree
    | none => exact .left (related_failed rfl id.loc) nofun hagree
  · rw [hfirst, hsecond]
    exact .done hvalue hagree

/-! ### Operators and places -/

/-- A new array gets the same place in both runs. -/
theorem take {a₁ a₂ : Heap.Answer} (h : r.Related a₁ a₂) :
    r.Follows depth jumps (Eval.onHeap (·.take a₁)) (Eval.onHeap (·.take a₂)) :=
  onHeap fun _ _ hheap => .map₂ (f := Heap.take) Heap.take_recode hheap h

/-- The warnings of an operation come before its answer is taken. -/
theorem takeComputed {c₁ c₂ : Computed} (h : r.Related c₁ c₂) (loc : Location) :
    r.Follows depth jumps (Eval.takeComputed c₁ loc)
      (Eval.takeComputed c₂ (r.move loc)) := by
  obtain ⟨rfl, hguarded⟩ := h
  have hanswer : r.Related c₁.answer (recode (.relocation r.move) c₁.answer) :=
    ⟨rfl, congrArg Computed.answer hguarded⟩
  exact bindPlain (adviseAll c₁.advisories loc) fun _ => take hanswer

/-- An operator looks at both operands and at the heap. -/
theorem binary (op : BinaryOp) {v v' w w' : Value} (hv : r.Related v v')
    (hw : r.Related w w') (loc : Location) :
    r.Follows depth jumps (Eval.binary op v w loc)
      (Eval.binary op v' w' (r.move loc)) :=
  bind (askHeap fun _ _ hheap => .map₃ (f := fun h v w => Operator.binary h op v w)
      (fun ρ h v w => Operator.binary_recode ρ h op v w) hheap hv hw)
    fun _ _ hcomputed => takeComputed hcomputed loc

end Comparison.Follows

/-- A place has its own location and those of nothing else. -/
def recodePlace (ρ : Recoding) : Place → Place
  | .name id => .name (id.relocate ρ.loc)
  | .element container index loc =>
    .element (recode ρ container) (recode ρ index) (ρ.loc loc)
  | .member object name loc => .member (recode ρ object) name (ρ.loc loc)

instance : Recodable Place := ⟨recodePlace⟩

/-- The place of the first run and what it has become in the second one. -/
inductive Comparison.Places (r : Comparison) : Place → Place → Prop where
  | name (id : Name) : Places r (.name id) (.name (id.relocate r.move))
  | element {container container' index index' : Value}
      (hcontainer : r.Related container container')
      (hindex : r.Related index index') (loc : Location) :
      Places r (.element container index loc)
        (.element container' index' (r.move loc))
  | member {object object' : Value} (hobject : r.Related object object')
      (name : String) (loc : Location) :
      Places r (.member object name loc) (.member object' name (r.move loc))

/-- Related places are of the same form. -/
theorem Comparison.Related.places {p q : Place} (h : r.Related p q) :
    r.Places p q := by
  obtain ⟨rfl, hguarded⟩ := h
  cases p with
  | name id => exact .name id
  | element container index loc =>
    obtain ⟨hcontainer, hindex, -⟩ := Place.element.inj hguarded
    exact .element ⟨rfl, hcontainer⟩ ⟨rfl, hindex⟩ loc
  | member object name loc =>
    obtain ⟨hobject, -, -⟩ := Place.member.inj hguarded
    exact .member ⟨rfl, hobject⟩ name loc

/-- Places part by part are related as a whole. -/
theorem Comparison.Places.related {p q : Place} (h : r.Places p q) :
    r.Related p q := by
  cases h with
  | name id =>
    refine ⟨rfl, ?_⟩
    change Place.name (id.relocate r.guard.loc) = _
    rw [r.guard_loc]
    rfl
  | element hcontainer hindex loc =>
    refine ⟨?_, ?_⟩
    · rw [← hcontainer.moved, ← hindex.moved]
      rfl
    · change Place.element _ _ (r.guard.loc loc) = _
      rw [hcontainer.guarded, hindex.guarded, r.guard_loc]
      rfl
  | member hobject name loc =>
    refine ⟨?_, ?_⟩
    · rw [← hobject.moved]
      rfl
    · change Place.member _ _ (r.guard.loc loc) = _
      rw [hobject.guarded, r.guard_loc]
      rfl

namespace Comparison.Follows

/-- The container and the index have been evaluated, so nothing but the heap is asked.
-/
theorem readPlace {p q : Place} (h : r.Places p q) (frame : FrameId) :
    r.Follows depth jumps (Eval.readPlace frame p) (Eval.readPlace frame q) := by
  cases h with
  | name id => exact nameValue id frame
  | element hcontainer hindex loc =>
    exact askHeap fun _ _ hheap =>
      .map₃ (f := Heap.element) Heap.element_recode hheap hcontainer hindex
  | member hobject name loc =>
    exact askHeap fun _ _ hheap => .map₂ (f := fun h v => h.member v name)
      (fun ρ h v => Heap.member_recode ρ h v name) hheap hobject

/-- Constants are constants in both runs, so both fail or none does. -/
theorem assignName (id : Name) {v w : Value} (h : r.Related v w)
    (frame : FrameId) :
    r.Follows depth jumps (Eval.assignName id v frame)
      (Eval.assignName (id.relocate r.move) w frame) := by
  refine bindPlain (read fun _ _ hagree => .map (f := (·.isConstant frame id.text))
    (fun ρ a => a.isConstant_map (recode ρ) frame id.text) hagree.scopes)
    fun constant => ite (fun _ => fail rfl id.loc) fun _ => ?_
  exact onScopes fun _ _ hscopes =>
    .map₂ (f := fun a v => assigned a frame id.text v)
      (fun ρ a v => assigned_recode ρ a frame id.text v) hscopes h

/-- A part of a container is replaced in both heaps. -/
theorem storePart {part part' : Heap.Part} (hpart : r.Related part part')
    {v w : Value} (h : r.Related v w) :
    r.Follows depth jumps (Eval.storePart part v) (Eval.storePart part' w) :=
  onHeap fun _ _ hheap => .pair (.codeless ())
    (.map₃ (f := Heap.store) Heap.store_recode hheap hpart h)

/-- The part is found before it is written, and a place that is none fails before that.
-/
theorem writePlace {p q : Place} (hplace : r.Places p q) {v w : Value}
    (h : r.Related v w) (frame : FrameId) :
    r.Follows depth jumps (Eval.writePlace frame v p)
      (Eval.writePlace frame w q) := by
  cases hplace with
  | name id => exact assignName id h frame
  | element hcontainer hindex loc =>
    exact bind (askHeap fun _ _ hheap => .map₃ (f := Heap.elementPart)
      Heap.elementPart_recode hheap hcontainer hindex)
      fun _ _ hpart => storePart hpart h
  | member hobject name loc =>
    exact bind (askHeap fun _ _ hheap =>
      .map₂ (f := fun h v => h.memberPart v name)
        (fun ρ h v => Heap.memberPart_recode ρ h v name) hheap hobject)
      fun _ _ hpart => storePart hpart h

/-! ### Built-in functions that do not call -/

/-- A report about the arguments of a built-in function. -/
theorem wrongCount {f : Builtin} {expected : Builtin.Arity}
    {args args' : List Value} (h : r.Related args args') (loc : Location) :
    r.Follows depth jumps
      (Eval.askHeap loc fun _ =>
        (Builtin.wrongCount f expected args : Except Problem Value))
      (Eval.askHeap (r.move loc) fun _ => Builtin.wrongCount f expected args') :=
  askHeap fun _ _ _ => .map
    (fun ρ args => Builtin.wrongCount_recode ρ f expected args) h

/-- The report names the type of the argument that it got. -/
theorem wrongType {f : Builtin} {position : Nat} {expected : String}
    {v v' : Value} (h : r.Related v v') (loc : Location) :
    r.Follows depth jumps
      (Eval.askHeap loc fun heap =>
        (Builtin.wrongType heap f position expected v : Except Problem Value))
      (Eval.askHeap (r.move loc) fun heap =>
        Builtin.wrongType heap f position expected v') :=
  askHeap fun _ _ hheap => .map₂
    (f := fun heap v =>
      (Builtin.wrongType heap f position expected v : Except Problem Value))
    (fun ρ heap v => Builtin.wrongType_recode ρ heap f position expected v)
    hheap h

/-- All that is not an array with one more value is a report. -/
theorem push {args args' : List Value} (h : r.Related args args')
    (loc : Location) :
    r.Follows depth jumps (Eval.push loc args)
      (Eval.push (r.move loc) args') := by
  obtain ⟨rfl, hguarded⟩ := h
  match args with
  | [] => exact wrongCount ⟨rfl, rfl⟩ loc
  | [v] => cases v <;> exact wrongCount ⟨rfl, hguarded⟩ loc
  | [v, w] =>
    obtain ⟨hv, hw, -⟩ : recode r.guard v = v ∧ recode r.guard w = w ∧ True := by
      simpa using hguarded
    cases v with
    | array cell =>
      refine bindPlain (onHeap fun _ _ hheap => .pair (.codeless ()) ?_)
        fun _ => pure ⟨rfl, rfl⟩
      exact .map₂ (f := fun h v => h.modifyArray cell (·.push v))
        (fun ρ h v => Heap.modifyArray_recode ρ h cell fun items =>
          Heap.push_recode ρ items v) hheap ⟨rfl, hw⟩
    | _ => exact wrongType ⟨rfl, hv⟩ loc
  | v :: w :: x :: vs => cases v <;> exact wrongCount ⟨rfl, hguarded⟩ loc

/-- An empty array has no last item in either run. -/
theorem pop {args args' : List Value} (h : r.Related args args')
    (loc : Location) :
    r.Follows depth jumps (Eval.pop loc args) (Eval.pop (r.move loc) args') := by
  obtain ⟨rfl, hguarded⟩ := h
  match args with
  | [] => exact wrongCount ⟨rfl, rfl⟩ loc
  | [v] =>
    cases v with
    | array cell =>
      refine bind (read fun _ _ hagree => .map (f := fun h => (h.items cell).back?)
        (fun ρ h => by rw [Heap.items_recode, back?_recode]) hagree.heap)
        fun x y hlast => ?_
      rcases hlast.cases_option with ⟨rfl, rfl⟩ | ⟨v, w, rfl, rfl, hvalue⟩
      · exact fail rfl loc
      · refine bindPlain (onHeap fun _ _ hheap => .pair (.codeless ()) ?_)
          fun _ => pure hvalue
        exact .map (f := fun h => h.modifyArray cell Array.pop)
          (fun ρ h => Heap.modifyArray_recode ρ h cell fun items => by
            simp [recode_array]) hheap
    | _ => exact wrongType ⟨rfl, (List.cons.inj hguarded).1⟩ loc
  | v :: w :: vs => cases v <;> exact wrongCount ⟨rfl, hguarded⟩ loc

/-- Equal texts are printed behind whatever was printed before. -/
theorem printLine {args args' : List Value} (h : r.Related args args') :
    r.Follows depth jumps (Eval.printLine args) (Eval.printLine args') := by
  intro m₁ m₂ hagree
  have htexts : args.map m₁.heap.display = args'.map m₂.heap.display := by
    rw [← h.moved, ← hagree.heap.moved, Heap.map_display_recode]
  unfold Eval.printLine
  rw [htexts]
  exact .done ⟨rfl, rfl⟩ (hagree.printing _)

/-- A prompt is printed first, and the line is read from the same input. -/
theorem input {args args' : List Value} (h : r.Related args args')
    (loc : Location) :
    r.Follows depth jumps (Eval.input loc args)
      (Eval.input (r.move loc) args') := by
  obtain ⟨rfl, hguarded⟩ := h
  match args with
  | [] => exact bindPlain readLine fun text => pure ⟨rfl, rfl⟩
  | [v] =>
    refine bindPlain (read fun _ _ hagree => .map₂ (f := Heap.display)
      Heap.display_recode hagree.heap ⟨rfl, (List.cons.inj hguarded).1⟩)
      fun text => ?_
    exact bindPlain (print text) fun _ =>
      bindPlain readLine fun text => pure ⟨rfl, rfl⟩
  | v :: w :: vs => exact wrongCount ⟨rfl, hguarded⟩ loc

/-- A built-in function that only asks the heap, by what is known of its replies. -/
theorem replyOf {ask : Heap → List Value → Builtin.Reply}
    (hask : Builtin.Natural ask) {args args' : List Value}
    (h : r.Related args args') (loc : Location) :
    r.Follows depth jumps (Evaluator.replyOf ask args loc)
      (Evaluator.replyOf ask args' (r.move loc)) :=
  bind (askHeap fun _ _ hheap => .map₂ hask hheap h) fun _ _ hanswer =>
    take hanswer

/-- The arguments of a function that calls another one are checked before any call. -/
theorem itemsAndFunction (b : Builtin) {items items' f f' : Value}
    (hitems : r.Related items items') (hf : r.Related f f') (loc : Location) :
    r.Follows depth jumps (Evaluator.itemsAndFunction b items f loc)
      (Evaluator.itemsAndFunction b items' f' (r.move loc)) := by
  refine askHeap fun _ _ hheap => .map₃
    (f := fun h items f => do
      let items ← Builtin.arrayArg h b 1 items
      let f ← Builtin.functionArg h b 2 f
      return (items.toList, f)) (fun ρ h items f => ?_) hheap hitems hf
  rw [Builtin.arrayArg_recode, Builtin.functionArg_recode]
  refine Builtin.bind_recode ρ fun items => Builtin.bind_recode ρ fun f => ?_
  rw [recode_toList]
  rfl

/-! ### Annotations -/

/-- An unknown type is reported where the annotation has been moved to. -/
theorem requireKnown (type : TypeExpr) (frame : FrameId) :
    r.Follows depth jumps (Eval.requireKnown type frame)
      (Eval.requireKnown (type.relocate r.move) frame) := by
  intro m₁ m₂ hagree
  unfold Eval.requireKnown
  rw [← hagree.scopes.moved, unknownType?_recode]
  rcases unknownType? m₁.scopes frame type with _ | ⟨name, loc⟩
  · exact .done (.codeless ()) hagree
  · exact .left (related_failed rfl loc) nofun hagree

end Comparison.Follows

/-- Whether a value has a type does not depend on where the type was written. -/
@[simp]
theorem Heap.hasType_relocate (h : Heap) (move : Location → Location)
    (type : TypeExpr) (v : Value) :
    h.hasType (type.relocate move) v = h.hasType type v := by
  induction type generalizing v with
  | named | map => rfl
  | array element loc ih =>
    cases v with
    | array cell => exact congrArg (h.items cell).all (funext ih)
    | _ => rfl

/-- A report about a declaration shows types only. -/
theorem bindingProblem?_recode (ρ : Recoding) (h : Heap) (name : String)
    (type : TypeExpr) (v : Value) :
    Eval.bindingProblem? (recode ρ h) name type (recode ρ v) =
      recode ρ (Eval.bindingProblem? h name type v) := by
  simp only [Eval.bindingProblem?, Heap.hasType_recode,
    Heap.firstMismatch?_recode, Heap.typeName_recode]
  split
  · rfl
  · rcases h.firstMismatch? type v with _ | ⟨position, item⟩
    · rfl
    · simp only [recode_some, recode_pair, Heap.typeName_recode]
      rfl

/-- The annotation may have been moved. -/
theorem bindingProblem?_relocate (h : Heap) (name : String)
    (move : Location → Location) (type : TypeExpr) (v : Value) :
    Eval.bindingProblem? h name (type.relocate move) v =
      Eval.bindingProblem? h name type v := by
  have hmismatch : h.firstMismatch? (type.relocate move) v =
      h.firstMismatch? type v := by
    cases v with
    | array cell =>
      simp only [Heap.firstMismatch?, TypeExpr.element?_relocate]
      cases type.element? <;> simp
    | _ => rfl
  simp only [Eval.bindingProblem?, Heap.hasType_relocate, hmismatch,
    TypeExpr.print_relocate, TypeExpr.element?_relocate, Option.map_map,
    Function.comp_def]

namespace Comparison.Follows

/-- First the annotation has to be known, then the value has to fit. -/
theorem checkBinding (name : String) (type : TypeExpr) {v w : Value}
    (h : r.Related v w) (frame : FrameId) (loc : Location) :
    r.Follows depth jumps (Eval.checkBinding name type v frame loc)
      (Eval.checkBinding name (type.relocate r.move) w frame (r.move loc)) := by
  refine bindPlain (requireKnown type frame) fun _ => ?_
  simp only [bindingProblem?_relocate]
  refine bind (read fun _ _ hagree => .map₂
    (f := fun h v => Eval.bindingProblem? h name type v)
    (fun ρ h v => bindingProblem?_recode ρ h name type v) hagree.heap h)
    fun x y hproblem => ?_
  rcases hproblem.cases_option with ⟨rfl, rfl⟩ | ⟨p, q, rfl, rfl, hpq⟩
  · exact pure (.codeless ())
  · cases hpq.problem_eq
    exact fail hpq.guarded loc

/-- An argument is checked in the frame that it is to be bound in. -/
theorem checkArgument (function : String) (param : TypedName) {v w : Value}
    (h : r.Related v w) (frame : FrameId) (loc : Location) :
    r.Follows depth jumps (Eval.checkArgument function param v frame loc)
      (Eval.checkArgument function (param.relocate r.move) w frame
        (r.move loc)) := by
  refine bindPlain (requireKnown param.type frame) fun _ => ?_
  simp only [TypedName.relocate, Heap.hasType_relocate, TypeExpr.print_relocate]
  refine askHeap fun _ _ hheap => .map₂ (f := fun heap v =>
    (if heap.hasType param.type v then .ok ()
      else .error (.parameterType function param.name.text param.type.print
        (heap.typeName v)) : Except Problem Unit)) (fun ρ heap v => ?_) hheap h
  simp only [Heap.hasType_recode, Heap.typeName_recode]
  split <;> rfl

end Comparison.Follows

/-! ### Return types -/

/-- Only the name counts. -/
theorem isVoid_relocate (move : Location → Location) (type : TypeExpr) :
    Eval.isVoid (type.relocate move) = Eval.isVoid type := by
  cases type with
  | named name loc =>
    by_cases hname : name = "void" <;>
      simp [TypeExpr.relocate, Eval.isVoid, hname]
  | _ => rfl

/-- What counts is the value and whether it was returned explicitly. -/
theorem checkSingle_recode (ρ : Recoding) (h : Heap) (function : String)
    (type : TypeExpr) (c : Completion) :
    Eval.checkSingle (recode ρ h) function type (recode ρ c) =
      recode ρ (Eval.checkSingle h function type c) := by
  have hvalue : (recode ρ c).value = recode ρ c.value := rfl
  have hexplicit : (recode ρ c).explicit = c.explicit := rfl
  simp only [Eval.checkSingle, hvalue, hexplicit, Value.isNull_recode,
    Heap.hasType_recode, Heap.typeName_recode]
  split
  · split <;> rfl
  · split
    · rfl
    · split <;> rfl

theorem checkSingle_relocate (h : Heap) (function : String)
    (move : Location → Location) (type : TypeExpr) (c : Completion) :
    Eval.checkSingle h function (type.relocate move) c =
      Eval.checkSingle h function type c := by
  simp only [Eval.checkSingle, isVoid_relocate, Heap.hasType_relocate,
    TypeExpr.print_relocate]

/-- As many values as types, one by one. -/
theorem haveTypes_recode (ρ : Recoding) (h : Heap) (types : List TypeExpr)
    (values : List Value) :
    Eval.haveTypes (recode ρ h) types (recode ρ values) =
      Eval.haveTypes h types values := by
  simp only [Eval.haveTypes, length_recode]
  rw [recode_list, List.zip_map_right, List.all_map]
  refine congrArg (_ && ·) (congrArg (types.zip values).all (funext fun pair => ?_))
  exact Heap.hasType_recode ρ h pair.1 pair.2

theorem haveTypes_relocate (h : Heap) (move : Location → Location)
    (types : List TypeExpr) (values : List Value) :
    Eval.haveTypes h (types.map (TypeExpr.relocate move)) values =
      Eval.haveTypes h types values := by
  simp only [Eval.haveTypes, List.length_map]
  rw [List.zip_map_left, List.all_map]
  refine congrArg (_ && ·) (congrArg (types.zip values).all (funext fun pair => ?_))
  exact Heap.hasType_relocate h move pair.1 pair.2

/-- Several values are returned in an array, and anything else is a report. -/
theorem checkSeveral_recode (ρ : Recoding) (h : Heap) (function : String)
    (types : List TypeExpr) (v : Value) :
    Eval.checkSeveral (recode ρ h) function types (recode ρ v) =
      recode ρ (Eval.checkSeveral h function types v) := by
  cases v with
  | array cell =>
    change Eval.checkSeveral (recode ρ h) function types (.array cell) = _
    simp only [Eval.checkSeveral, Heap.items_recode, recode_toList,
      haveTypes_recode, Heap.map_typeName_recode]
    split <;> rfl
  | record cell =>
    change Eval.checkSeveral (recode ρ h) function types (.record cell) = _
    simp only [Eval.checkSeveral]
    exact congrArg (fun got => Except.error (Problem.returnType function _ got))
      (Heap.typeName_recode ρ h (.record cell))
  | _ => rfl

theorem checkSeveral_relocate (h : Heap) (function : String)
    (move : Location → Location) (types : List TypeExpr) (v : Value) :
    Eval.checkSeveral h function (types.map (TypeExpr.relocate move)) v =
      Eval.checkSeveral h function types v := by
  simp only [Eval.checkSeveral, TypeExpr.map_print_relocate, haveTypes_relocate]

/-! ### Functions -/

namespace Comparison.Related

variable {f f' : Closure}

/-- Of two related functions the second one has the code moved. -/
theorem code_eq (h : r.Related f f') : f'.code = f.code.relocate r.move := by
  rw [← h.moved]
  rfl

/-- The code of the first run is none that the guard would change. -/
theorem code_guarded (h : r.Related f f') :
    r.guard.function f.code = f.code :=
  congrArg Closure.code h.guarded

theorem frame_eq (h : r.Related f f') : f'.frame = f.frame := by
  rw [← h.moved]
  rfl

theorem name_eq (h : r.Related f f') : f'.name = f.name := by
  rw [← h.moved, Closure.name_recode]

end Comparison.Related

/-- A function moves part by part. -/
theorem Function.params_relocate (move : Location → Location) (f : Function) :
    (f.relocate move).params = f.params.relocate move := by
  cases f
  rfl

theorem Function.returns_relocate (move : Location → Location) (f : Function) :
    (f.relocate move).returns = f.returns.map (TypeExpr.relocate move) := by
  cases f
  rfl

theorem Function.body_relocate (move : Location → Location) (f : Function) :
    (f.relocate move).body = f.body.relocate move := by
  cases f
  rfl

theorem Function.name_relocate (move : Location → Location) (f : Function) :
    (f.relocate move).name = f.name := by
  cases f
  rfl

/-- A hold is none of the values, so the frame is pinned in both arenas. -/
theorem pin_recode (ρ : Recoding) (a : Arena Value) (frame : FrameId) :
    ((recode ρ a).pin frame).2 = recode ρ (a.pin frame).2 :=
  congrArg Prod.snd (a.pin_map (recode ρ) frame)

namespace Comparison.Follows

/-- A new function of any kind gets a number, and the frame is pinned. -/
theorem newFunction {α : Type} [Recodable α] {f g : Nat → α}
    (h : ∀ id, r.Related (f id) (g id)) (frame : FrameId) :
    r.Follows depth jumps
      (fun m => .done (f m.heap.newIdentity.1) { m with
        scopes := (m.scopes.pin frame).2
        heap := m.heap.newIdentity.2 })
      (fun m => .done (g m.heap.newIdentity.1) { m with
        scopes := (m.scopes.pin frame).2
        heap := m.heap.newIdentity.2 }) := by
  intro m₁ m₂ hagree
  have hscopes : r.Related (m₁.scopes.pin frame).2 (m₂.scopes.pin frame).2 :=
    .map (f := fun a => (a.pin frame).2) (fun ρ a => pin_recode ρ a frame)
      hagree.scopes
  have hheap : r.Related m₁.heap.newIdentity m₂.heap.newIdentity :=
    .map (f := Heap.newIdentity) Heap.newIdentity_recode hagree.heap
  have hid : m₁.heap.newIdentity.1 = m₂.heap.newIdentity.1 :=
    hheap.fst.eq_of_codeless
  exact .done (hid ▸ h _) ((hagree.withScopes hscopes).withHeap hheap.snd)

/-- The code must be none that the guard would change. -/
theorem makeFunction {f : Function} (h : r.guard.function f = f)
    (frame : FrameId) :
    r.Follows depth jumps (Eval.makeFunction f frame)
      (Eval.makeFunction (f.relocate r.move) frame) :=
  newFunction (f := fun id => Closure.mk id f frame)
    (fun id => ⟨rfl, congrArg (Closure.mk id · frame) h⟩) frame

theorem makeArrow {params : List Name} {body : Expr}
    (hparams : r.guard.params params = params) (hbody : r.guard.body body = body)
    (frame : FrameId) :
    r.Follows depth jumps (Eval.makeArrow params body frame)
      (Eval.makeArrow (params.map (Name.relocate r.move)) (body.relocate r.move)
        frame) := by
  refine newFunction (f := fun id => Value.arrow ⟨id, params, body, frame⟩)
    (fun id => ⟨rfl, ?_⟩) frame
  change Value.arrow ⟨id, r.guard.params params, r.guard.body body, frame⟩ = _
  rw [hparams, hbody]

/-- Names without values are left unbound, in both runs alike. -/
theorem bindNames (frame : FrameId) (names : List Name)
    {values values' : List Value} (h : r.Related values values') :
    r.Follows depth jumps (Eval.bindNames frame names values)
      (Eval.bindNames frame (names.map (Name.relocate r.move)) values') := by
  induction names generalizing values values' with
  | nil => exact pure (.codeless ())
  | cons name names ih =>
    rcases h.cases_list with ⟨rfl, rfl⟩ | ⟨v, vs, w, ws, rfl, rfl, hvalue, hrest⟩
    · exact pure (.codeless ())
    · exact bindPlain (define frame name.text hvalue) fun _ => ih hrest

/-- Each argument is checked before it is bound, and the one behind it after that. -/
theorem bindTyped (function : String) (frame : FrameId) (loc : Location)
    (params : List TypedName) {values values' : List Value}
    (h : r.Related values values') :
    r.Follows depth jumps (Eval.bindTyped function frame loc params values)
      (Eval.bindTyped function frame (r.move loc)
        (params.map (TypedName.relocate r.move)) values') := by
  induction params generalizing values values' with
  | nil => exact pure (.codeless ())
  | cons param params ih =>
    rcases h.cases_list with ⟨rfl, rfl⟩ | ⟨v, vs, w, ws, rfl, rfl, hvalue, hrest⟩
    · exact pure (.codeless ())
    · exact bindPlain (checkArgument function param hvalue frame loc) fun _ =>
        bindPlain (define frame param.name.text hvalue) fun _ => ih hrest

/-- Whether parameters have types is the same in both runs. -/
theorem bindParams (function : String) (params : Params)
    {args args' : List Value} (h : r.Related args args') (frame : FrameId)
    (loc : Location) :
    r.Follows depth jumps (Eval.bindParams function params args frame loc)
      (Eval.bindParams function (params.relocate r.move) args' frame
        (r.move loc)) := by
  cases params with
  | plain names => exact bindNames frame names h
  | typed params => exact bindTyped function frame loc params h

/-- By the number of return types, as a call does it. -/
theorem checkReturn {f f' : Closure} (hf : r.Related f f') {c c' : Completion}
    (hc : r.Related c c') (loc : Location) :
    r.Follows depth jumps (Eval.checkReturn f c loc)
      (Eval.checkReturn f' c' (r.move loc)) := by
  have hvalue : r.Related c.value c'.value := .map (fun _ _ => rfl) hc
  unfold Eval.checkReturn
  rw [hf.code_eq, hf.frame_eq, hf.name_eq, Function.returns_relocate]
  match f.code.returns with
  | [] => exact pure hvalue
  | [type] =>
    refine bindPlain (requireKnown type f.frame) fun _ => ?_
    simp only [checkSingle_relocate]
    exact askHeap fun _ _ hheap => .map₂
      (f := fun h c => Eval.checkSingle h f.name type c)
      (fun ρ h c => checkSingle_recode ρ h f.name type c) hheap hc
  | type :: type' :: types =>
    have htypes : (type :: type' :: types).map (TypeExpr.relocate r.move) =
        type.relocate r.move :: type'.relocate r.move ::
          types.map (TypeExpr.relocate r.move) := rfl
    rw [htypes]
    simp only [← htypes, checkSeveral_relocate]
    exact askHeap fun _ _ hheap => .map₂
      (f := fun h v => Eval.checkSeveral h f.name (type :: type' :: types) v)
      (fun ρ h v => checkSeveral_recode ρ h f.name _ v) hheap hvalue

/-- The function that a name stands for where this value was found under it. -/
def functionOr (name : String) : Option Value → Option Value
  | some v => if v.isCallable then some v else (Builtin.global? name).map Value.builtin
  | none => (Builtin.global? name).map Value.builtin

theorem freeFunction?_eq (frame : FrameId) (name : String) :
    Eval.freeFunction? frame name =
      Eval.read fun m => functionOr name (m.scopes.get? frame name) := by
  unfold Eval.freeFunction?
  refine congrArg Eval.read (funext fun m => ?_)
  cases m.scopes.get? frame name <;> rfl

/-- A name that is bound to no function may still be a built-in one. -/
theorem freeFunction? (frame : FrameId) (name : String) :
    r.Follows depth jumps (Eval.freeFunction? frame name)
      (Eval.freeFunction? frame name) := by
  rw [freeFunction?_eq]
  refine read fun _ _ hagree => .map (f := fun a : Arena Value =>
    functionOr name (a.get? frame name)) (fun ρ a => ?_) hagree.scopes
  have hbuiltin : recode ρ ((Builtin.global? name).map Value.builtin) =
      (Builtin.global? name).map Value.builtin := by
    cases Builtin.global? name <;> rfl
  rw [get?_recode]
  rcases a.get? frame name with _ | v
  · exact hbuiltin.symm
  · simp only [functionOr, recode_some, Value.isCallable_recode]
    split
    · rfl
    · exact hbuiltin.symm

/-! ### Declarations -/

/-- The fields are kept as texts, so they have no locations to differ in. -/
theorem declareStruct (name : Name) (fields : List Name) (frame : FrameId) :
    r.Follows depth jumps (Eval.declareStruct name fields frame)
      (Eval.declareStruct (name.relocate r.move)
        (fields.map (Name.relocate r.move)) frame) := by
  have hfields : (fields.map (Name.relocate r.move)).map (·.text) =
      fields.map (·.text) := by
    simp [Name.relocate, Function.comp_def]
  unfold Eval.declareStruct
  rw [hfields]
  refine bind (onHeap fun _ _ hheap => .map
    (f := fun h => h.newStruct name.text (fields.map (·.text)))
    (fun ρ h => Heap.newStruct_recode ρ h _ _) hheap) fun v w hvalue => ?_
  exact bindPlain (define frame name.text hvalue) fun _ => pure ⟨rfl, rfl⟩

/-- Variants are numbered by their order and the numbers written down. -/
theorem declareEnum (name : Name) (variants : List VariantDecl)
    (frame : FrameId) :
    r.Follows depth jumps (Eval.declareEnum name variants frame)
      (Eval.declareEnum (name.relocate r.move)
        (variants.map (VariantDecl.relocate r.move)) frame) := by
  have hnumbers : ∀ next : Int64,
      Eval.numberVariants next (variants.map (VariantDecl.relocate r.move)) =
        Eval.numberVariants next variants := by
    induction variants with
    | nil => exact fun _ => rfl
    | cons v variants ih =>
      intro next
      exact congrArg (_ :: ·) (ih _)
  unfold Eval.declareEnum
  rw [hnumbers]
  refine bindPlain (onHeap fun _ _ hheap => .map (f := Heap.newIdentity)
    Heap.newIdentity_recode hheap) fun id => ?_
  exact bindPlain (define frame name.text ⟨rfl, rfl⟩) fun _ => pure ⟨rfl, rfl⟩

/-- The struct is looked up before the method is made, so a report leaves no trace. -/
theorem declareMethod (struct : Name) {f : Function}
    (h : r.guard.function f = f) (frame : FrameId) :
    r.Follows depth jumps (Eval.declareMethod struct f frame)
      (Eval.declareMethod (struct.relocate r.move) (f.relocate r.move)
        frame) := by
  unfold Eval.declareMethod
  rw [Function.name_relocate]
  refine bind (lookup? frame struct.text) fun x y hfound => ?_
  rcases hfound.cases_option with ⟨rfl, rfl⟩ | ⟨v, w, rfl, rfl, hvalue⟩
  · exact fail rfl struct.loc
  · obtain ⟨rfl, -⟩ := hvalue
    cases v with
    | struct d =>
      refine bind (makeFunction h frame) fun f₁ f₂ hclosure => ?_
      refine bindPlain (onHeap fun _ _ hheap => .pair (.codeless ()) ?_)
        fun _ => pure ⟨rfl, rfl⟩
      exact .map₂ (f := fun h f₁ => h.addMethod d (f.name.getD "") f₁)
        (fun ρ h f₁ => Heap.addMethod_recode ρ h d _ f₁) hheap hclosure
    | _ => exact fail rfl struct.loc

/-- Names of a module are bound one after another. -/
theorem defineAll (frame : FrameId) {bindings bindings' : List (String × Value)}
    (h : r.Related bindings bindings') :
    r.Follows depth jumps (Eval.defineAll frame bindings)
      (Eval.defineAll frame bindings') := by
  induction bindings generalizing bindings' with
  | nil =>
    obtain ⟨rfl, -⟩ := h
    exact pure (.codeless ())
  | cons binding bindings ih =>
    obtain ⟨name, v⟩ := binding
    obtain ⟨⟨name', w⟩, rest, rfl, hbinding, hrest⟩ := h.of_cons
    obtain rfl : name = name' := hbinding.fst.eq_of_codeless
    exact bindPlain (define frame name hbinding.snd) fun _ => ih hrest

/-- A module that is missing ends the statement, with what came before it bound. -/
theorem includeModules {library library' : Library}
    (hlibrary : ∀ name, r.Related (library name) (library' name))
    (loc : Location) (frame : FrameId) (modules : List String) :
    r.Follows depth jumps (Eval.includeModules library loc frame modules)
      (Eval.includeModules library' (r.move loc) frame modules) := by
  induction modules with
  | nil => exact pure ⟨rfl, rfl⟩
  | cons name modules ih =>
    unfold Eval.includeModules
    rcases (hlibrary name).cases_option with ⟨hfirst, hsecond⟩ |
      ⟨bindings, bindings', hfirst, hsecond, hbindings⟩
    · rw [hfirst, hsecond]
      exact fail rfl loc
    · rw [hfirst, hsecond]
      exact bindPlain (defineAll frame hbindings) fun _ => ih

end Comparison.Follows

end Script
