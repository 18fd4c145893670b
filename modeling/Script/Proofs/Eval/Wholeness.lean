import Script.Proofs.Builtin.References
import Script.Proofs.Eval.Balance
import Script.Proofs.Eval.References
import Script.Proofs.Eval.Rules

/-!
# Evaluation keeps machines whole

Whatever is evaluated on a whole machine, the machine stays whole, loses none of its
containers, and knows the value that comes out.  The rules are gone through in the order
in which they are defined; what a rule is given beforehand is known from some heap on.
-/

namespace Script

open Scope (Arena FrameId)
open Std (ExtTreeMap)

/-- The values that a task is given. -/
def Task.given : Task → List Value
  | .apply callee args _ => callee :: args
  | .expr .. | .stmt .. => []

/-- The modules bind no containers. -/
def Library.WithoutContainers (library : Library) : Prop :=
  ∀ name bindings, library name = some bindings → ∀ b ∈ bindings, b.2.ref? = none

/-- The standard modules bind functions and numbers only. -/
theorem Library.standard_withoutContainers : Library.standard.WithoutContainers := by
  intro name bindings hbindings b hb
  unfold Library.standard at hbindings
  split at hbindings <;> cases hbindings
  · simp only [Library.functions, List.map_cons, List.map_nil, List.cons_append,
      List.nil_append, List.mem_cons, List.not_mem_nil, or_false] at hb
    rcases hb with rfl | rfl | rfl | rfl | rfl | rfl | rfl | rfl | rfl <;> rfl
  · obtain ⟨f, -, rfl⟩ := List.mem_map.mp hb
    rfl

theorem Library.empty_withoutContainers : Library.empty.WithoutContainers := nofun

namespace Eval

variable {h : Heap}

/-! ### Rules without an evaluator -/

/-- What a name is bound to is known, since frames hold nothing else. -/
theorem sound_nameValue (id : Name) (frame : FrameId) : Sound h (nameValue id frame) := by
  intro m hm
  have hfound := Heap.knows_get? hm.scopes frame id.text
  unfold nameValue
  split
  · next v hv =>
    rw [hv] at hfound
    exact ⟨hm.whole.keeps, Heap.knows_some.mp hfound⟩
  · split
    · exact ⟨hm.whole.keeps, Heap.knows_of_ref? rfl⟩
    · exact ⟨hm.whole.keeps, Heap.knows_failed _ _⟩

/-- An array that is still to be made has items that are known. -/
theorem sound_take {answer : Heap.Answer} (hanswer : h.Knows answer) :
    Sound h (onHeap (·.take answer)) :=
  sound_onHeap fun _ hg hwithin => hg.take (hanswer.mono hwithin)

theorem sound_takeComputed {c : Computed} (hc : h.Knows c.answer) (loc : Location) :
    Sound h (takeComputed c loc) :=
  (sound_adviseAll _ loc).next fun _ hwithin _ => sound_take (hc.mono hwithin)

/-- An operator makes its answer of the operands or of what they contain. -/
theorem sound_binary (op : BinaryOp) (left right : Value) (loc : Location) :
    Sound h (Eval.binary op left right loc) :=
  (sound_askHeap loc fun _ hg _ => Operator.knows_binary hg op left right).bind
    fun _ _ _ hc => sound_takeComputed (Heap.knows_computed.mp hc) loc

theorem sound_readPlace (frame : FrameId) (place : Place) :
    Sound h (readPlace frame place) := by
  cases place with
  | name id => exact sound_nameValue id frame
  | element container index loc =>
    exact sound_askHeap loc fun _ hg _ => hg.element container index
  | member object name loc => exact sound_askHeap loc fun _ hg _ => hg.member object name

/-- Either way a value that is known takes its place in a frame. -/
theorem sound_assignName (id : Name) {value : Value} (hvalue : h.Knows value)
    (frame : FrameId) : Sound h (assignName id value frame) := by
  intro m hm
  have hknown : m.heap.Knows value := hvalue.mono hm.within
  rcases assignName_cases id value frame m with ⟨-, heq⟩ | ⟨-, -, heq⟩ | ⟨-, heq⟩
  · rw [heq]
    exact ⟨hm.whole.keeps, Heap.knows_failed _ _⟩
  · rw [heq]
    exact ⟨hm.whole.keeps.of_scopes rfl (Heap.knows_update hm.scopes frame _ hknown),
      Heap.knows_valueless ()⟩
  · rw [heq]
    exact ⟨hm.whole.keeps.of_scopes rfl (Heap.knows_bind_frame hm.scopes frame hknown),
      Heap.knows_valueless ()⟩

/-- A part that is looked up is written to. -/
theorem sound_storeAsked (loc : Location) {ask : Heap → Except Problem Heap.Part}
    {value : Value} (hask : ∀ g : Heap, h.Within g → g.Knows (ask g))
    (hvalue : h.Knows value) :
    Sound h (do let part ← askHeap loc ask; storePart part value) :=
  (sound_askHeap loc fun g _ hwithin => hask g hwithin).bind fun _ hwithin _ hpart =>
    sound_onHeap fun _ hg hmore =>
      ⟨hg.store (hpart.mono hmore) (hvalue.mono (hwithin.trans hmore)),
        Heap.knows_valueless ()⟩

/-- Whether the place is there is asked of the heap as it is by then. -/
theorem sound_writePlace (frame : FrameId) {value : Value} {place : Place}
    (hplace : h.Knows place) (hvalue : h.Knows value) :
    Sound h (writePlace frame value place) := by
  cases place with
  | name id => exact sound_assignName id hvalue frame
  | element container index loc =>
    have hindex : h.Knows index := (Heap.knows_append.mp hplace).2
    exact sound_storeAsked loc
      (fun _ hwithin => Heap.knows_elementPart (hindex.mono hwithin)) hvalue
  | member object name loc =>
    exact sound_storeAsked loc (fun _ _ => Heap.knows_memberPart object name) hvalue

/-- What is wrong about the arguments of a built-in function. -/
theorem sound_askError {α : Type} [Mentioning α] (loc : Location)
    {problem : Heap → Problem} :
    Sound h (askHeap loc fun g => (.error (problem g) : Except Problem α)) :=
  sound_askHeap loc fun g _ _ => Heap.knows_error (problem g)

/-- The array stays where it is and gets a value that is known. -/
theorem sound_push (loc : Location) {args : List Value} (hargs : h.Knows args) :
    Sound h (push loc args) := by
  unfold push
  split
  · next cell v =>
    have hcell := Heap.knows_list.mp hargs (.array cell) (by simp)
    have hv := Heap.knows_list.mp hargs v (by simp)
    refine (sound_onHeap fun g hg hwithin => ⟨?_, Heap.knows_valueless ()⟩).next
      fun _ hwithin _ => sound_pure (hcell.mono hwithin)
    exact hg.modifyArray cell fun _ hitems => Heap.knows_push hitems (hv.mono hwithin)
  · exact sound_askError loc
  · exact sound_askError loc

/-- The last item has been an item, so it is known where it goes next. -/
theorem sound_pop (loc : Location) (args : List Value) : Sound h (pop loc args) := by
  unfold pop
  split
  · next cell =>
    refine (sound_read fun _ hm => Builtin.knows_back? (hm.heap.items cell)).bind
      fun h' _ last hlast => ?_
    split
    · next v =>
      refine (sound_onHeap fun g hg _ => ⟨?_, Heap.knows_valueless ()⟩).next
        fun _ hwithin _ => sound_pure ((Heap.knows_some.mp hlast).mono hwithin)
      exact hg.modifyArray cell fun items hitems => Heap.knows_pop hitems
    · exact sound_fail _ loc
  · exact sound_askError loc
  · exact sound_askError loc

/-- To print changes neither frames nor containers. -/
theorem sound_printLine (args : List Value) : Sound h (printLine args) :=
  fun _ hm => ⟨hm.whole.keeps.of_scopes rfl hm.scopes, Heap.knows_of_ref? rfl⟩

theorem sound_input (loc : Location) (args : List Value) : Sound h (input loc args) := by
  have hread : ∀ g : Heap, Sound g (do return Value.str (← readLine)) := fun _ =>
    sound_readLine.next fun _ _ _ => sound_plain rfl
  unfold input
  split
  · exact hread h
  · exact (sound_read fun _ _ => Heap.knows_valueless _).next fun _ _ text =>
      (sound_print text).next fun _ _ _ => hread _
  · exact sound_askError loc

theorem sound_requireKnown (type : TypeExpr) (frame : FrameId) :
    Sound h (requireKnown type frame) := by
  intro m hm
  unfold requireKnown
  split
  · exact ⟨hm.whole.keeps, Heap.knows_failed _ _⟩
  · exact ⟨hm.whole.keeps, Heap.knows_valueless ()⟩

/-- A check gives no value, and its report has none in it. -/
theorem sound_checkBinding (name : String) (type : TypeExpr) (v : Value)
    (frame : FrameId) (loc : Location) :
    Sound h (checkBinding name type v frame loc) := by
  refine (sound_requireKnown type frame).next fun _ _ _ => ?_
  refine (sound_read fun _ _ => ?_).bind fun _ _ problem _ => ?_
  · exact Heap.knows_option.mpr fun _ _ => Heap.knows_valueless _
  split
  · exact sound_fail _ loc
  · exact sound_pure (Heap.knows_valueless ())

theorem sound_checkArgument (function : String) (param : TypedName) (v : Value)
    (frame : FrameId) (loc : Location) :
    Sound h (checkArgument function param v frame loc) :=
  (sound_requireKnown param.type frame).next fun _ _ _ =>
    sound_askHeap loc fun g _ _ => by
      split
      · exact Heap.knows_ok.mpr (Heap.knows_valueless ())
      · exact Heap.knows_error _

/-- Making a closure pins the frame around it and gives the closure a number. -/
theorem keeps_pin_newIdentity {m : Machine} (hm : m.Keeps h) (frame : FrameId) :
    Machine.Keeps { m with
      scopes := (m.scopes.pin frame).2
      heap := m.heap.newIdentity.2 } m.heap := by
  have hmore : m.heap.Extends m.heap.newIdentity.2 := hm.heap.of_eq rfl rfl rfl
  refine ⟨hmore.within, Machine.whole_iff.mpr ⟨?_, hmore.whole⟩⟩
  exact (Heap.knows_pin hm.scopes frame).mono hmore.within

/-- A closure refers to its frame and to no container. -/
theorem sound_makeFunction (f : Function) (frame : FrameId) :
    Sound h (makeFunction f frame) :=
  fun _ hm => ⟨keeps_pin_newIdentity hm frame, Heap.knows_valueless _⟩

theorem sound_makeArrow (params : List Name) (body : Expr) (frame : FrameId) :
    Sound h (makeArrow params body frame) :=
  fun _ hm => ⟨keeps_pin_newIdentity hm frame, Heap.knows_of_ref? rfl⟩

/-- Each binding leads to a larger heap, in which the values behind it are still known.
-/
theorem sound_bindNames (frame : FrameId) (names : List Name) {values : List Value}
    (hvalues : h.Knows values) : Sound h (bindNames frame names values) := by
  induction names generalizing values h with
  | nil => exact sound_pure (Heap.knows_valueless ())
  | cons name names ih =>
    cases values with
    | nil => exact sound_pure (Heap.knows_valueless ())
    | cons v values =>
      rw [Heap.knows_cons] at hvalues
      exact (sound_define frame name.text hvalues.1).next fun _ hwithin _ =>
        ih (hvalues.2.mono hwithin)

/-- Between two bindings there is a check, which may have noted something. -/
theorem sound_bindTyped (function : String) (frame : FrameId) (loc : Location)
    (params : List TypedName) {values : List Value} (hvalues : h.Knows values) :
    Sound h (bindTyped function frame loc params values) := by
  induction params generalizing values h with
  | nil => exact sound_pure (Heap.knows_valueless ())
  | cons param params ih =>
    cases values with
    | nil => exact sound_pure (Heap.knows_valueless ())
    | cons v values =>
      rw [Heap.knows_cons] at hvalues
      refine (sound_checkArgument function param v frame loc).next fun _ hchecked _ => ?_
      refine (sound_define frame param.name.text (hvalues.1.mono hchecked)).next
        fun _ hwithin _ => ?_
      exact ih (hvalues.2.mono (hchecked.trans hwithin))

theorem sound_bindParams (function : String) (params : Params) {args : List Value}
    (hargs : h.Knows args) (frame : FrameId) (loc : Location) :
    Sound h (bindParams function params args frame loc) := by
  cases params with
  | plain names => exact sound_bindNames frame names hargs
  | typed params => exact sound_bindTyped function frame loc params hargs

/-- What is returned is the value itself or nothing. -/
theorem sound_checkReturn (f : Closure) {c : Completion} (hc : h.Knows c)
    (loc : Location) : Sound h (checkReturn f c loc) := by
  have hvalue : h.Knows c.value := hc
  unfold checkReturn
  split
  · exact sound_pure hvalue
  · refine (sound_requireKnown _ f.frame).next fun _ hwithin _ =>
      sound_askHeap loc fun g _ hmore => ?_
    unfold checkSingle
    repeat' split
    all_goals first
      | exact Heap.knows_error _
      | exact Heap.knows_ok.mpr (Heap.knows_of_ref? rfl)
      | exact Heap.knows_ok.mpr (hvalue.mono (hwithin.trans hmore))
  · refine sound_askHeap loc fun g _ hwithin => ?_
    unfold checkSeveral
    dsimp only
    split
    · next hcell =>
      split
      · exact Heap.knows_ok.mpr (hcell ▸ hvalue.mono hwithin)
      · exact Heap.knows_error _
    · exact Heap.knows_error _

/-- The frames and the heap are the same, whatever is noted. -/
theorem sound_noteRecursion (v : Value) (loc : Location) :
    Sound h (noteRecursion v loc) := by
  refine sound_of_same fun m => ?_
  obtain ⟨m', hdone, advisories, rfl⟩ := noteRecursion_noted v loc m
  exact ⟨(), _, hdone, rfl, rfl⟩

/-- The value was known before the question for constants and stays known. -/
theorem sound_bindVariable (constant : Bool) (name : Name) {v : Value} (hv : h.Knows v)
    (loc : Location) (frame : FrameId) :
    Sound h (bindVariable constant name v loc frame) := by
  refine (sound_read fun _ _ => Heap.knows_valueless _).next fun _ hread _ => ?_
  refine Sound.ite (sound_fail _ name.loc) ?_
  refine (sound_noteRecursion v loc).next fun _ hnoted _ => ?_
  refine (sound_onScopes fun g a hwithin ha => ?_).next fun _ _ _ =>
    sound_plain rfl
  exact Heap.knows_bind_frame ha frame (hv.mono ((hread.trans hnoted).trans hwithin))

/-- A struct is no container, and its methods have no values in them. -/
theorem sound_declareStruct (name : Name) (fields : List Name) (frame : FrameId) :
    Sound h (declareStruct name fields frame) := by
  refine (sound_onHeap fun g hg _ => ⟨hg.of_eq rfl rfl rfl, ?_⟩).bind fun _ _ v hv => ?_
  · exact Heap.knows_of_ref? rfl
  · exact (sound_define frame name.text hv).next fun _ _ _ =>
      sound_plain rfl

theorem sound_newIdentity : Sound h (onHeap (·.newIdentity)) :=
  sound_onHeap fun _ hg _ => ⟨hg.of_eq rfl rfl rfl, Heap.knows_valueless _⟩

/-- The same for enumerations, whose variants are numbers. -/
theorem sound_declareEnum (name : Name) (variants : List VariantDecl) (frame : FrameId) :
    Sound h (declareEnum name variants frame) :=
  sound_newIdentity.next fun _ _ _ =>
    (sound_define frame name.text (Heap.knows_of_ref? rfl)).next fun _ _ _ =>
      sound_plain rfl

theorem sound_declareMethod (struct : Name) (f : Function) (frame : FrameId) :
    Sound h (declareMethod struct f frame) := by
  refine (sound_lookup? frame struct.text).bind fun _ _ found _ => ?_
  split
  · refine (sound_makeFunction f frame).next fun _ _ closure => ?_
    exact (sound_onHeap fun g hg _ => ⟨hg.of_eq rfl rfl rfl, Heap.knows_valueless ()⟩).next
      fun _ _ _ => sound_plain rfl
  · exact sound_fail _ struct.loc

theorem sound_defineAll (frame : FrameId) {bindings : List (String × Value)}
    (hplain : ∀ b ∈ bindings, b.2.ref? = none) : Sound h (defineAll frame bindings) := by
  induction bindings generalizing h with
  | nil => exact sound_pure (Heap.knows_valueless ())
  | cons b bindings ih =>
    rw [List.forall_mem_cons] at hplain
    exact (sound_define frame b.1 (Heap.knows_of_ref? hplain.1)).next fun _ _ _ =>
      ih hplain.2

/-- Here the hypothesis on the modules comes in. -/
theorem sound_includeModules {library : Library} (hlibrary : library.WithoutContainers)
    (loc : Location) (frame : FrameId) (modules : List String) :
    Sound h (includeModules library loc frame modules) := by
  induction modules generalizing h with
  | nil => exact sound_plain rfl
  | cons name modules ih =>
    unfold includeModules
    split
    · next bindings hbindings =>
      exact (sound_defineAll frame (hlibrary name bindings hbindings)).next fun _ _ _ => ih
    · exact sound_fail _ loc

end Eval

/-- A loop binds a key, an item, or both. -/
theorem LoopNames.sound_bind {h : Heap} (names : LoopNames) (frame : FrameId)
    (keyed : Bool) {key value : Value} (hkey : h.Knows key) (hvalue : h.Knows value) :
    Eval.Sound h (names.bind frame keyed key value) := by
  cases names with
  | one name =>
    refine Eval.sound_define frame name ?_
    split
    · exact hkey
    · exact hvalue
  | two index item =>
    exact (Eval.sound_define frame index hkey).next fun _ hwithin _ =>
      Eval.sound_define frame item (hvalue.mono hwithin)

namespace Evaluator

open Eval

/-- What the evaluator is asked it does soundly, as long as what the task is given is
known, and the modules bind no containers. -/
structure Sound (ev : Evaluator) : Prop where
  run : ∀ (h : Heap) (task : Task), h.Knows task.given → Eval.Sound h (ev.run task)
  library : ev.settings.library.WithoutContainers

variable {ev : Evaluator} {h : Heap}

/-! ### Parts of expressions and blocks -/

/-- An expression is given nothing but its frame. -/
theorem Sound.expr (hev : ev.Sound) (e : Expr) (frame : FrameId) :
    Eval.Sound h (ev.expr e frame) :=
  hev.run h (.expr e frame) Heap.knows_nil

theorem Sound.stmt (hev : ev.Sound) (s : Stmt) (frame : FrameId) :
    Eval.Sound h (ev.stmt s frame) :=
  hev.run h (.stmt s frame) Heap.knows_nil

/-- A call is given the callee and the arguments. -/
theorem Sound.apply (hev : ev.Sound) {callee : Value} {args : List Value}
    (hcallee : h.Knows callee) (hargs : h.Knows args) (loc : Location) :
    Eval.Sound h (ev.apply callee args loc) :=
  hev.run h (.apply callee args loc)
    (Heap.knows_cons.mpr ⟨hcallee, hargs⟩)

theorem Sound.holds (hev : ev.Sound) (e : Expr) (frame : FrameId) :
    Eval.Sound h (ev.holds e frame) :=
  (hev.expr e frame).bind fun _ _ _ _ => sound_read fun _ _ => Heap.knows_valueless _

theorem Sound.optional (hev : ev.Sound) (frame : FrameId) (e : Option Expr) :
    Eval.Sound h (ev.optional frame e) := by
  cases e with
  | none => exact sound_pure Heap.knows_none
  | some e =>
    exact (hev.expr e frame).bind fun _ _ _ hv => sound_pure (Heap.knows_some.mpr hv)

/-- The value of the last statement is carried along, through heaps that only grow. -/
theorem Sound.statementsFrom (hev : ev.Sound) (frame : FrameId) (statements : List Stmt)
    {last : Value} (hlast : h.Knows last) :
    Eval.Sound h (ev.statementsFrom frame statements last) := by
  induction statements generalizing last h with
  | nil => exact sound_pure hlast
  | cons s statements ih => exact (hev.stmt s frame).bind fun _ _ _ hv => ih hv

theorem Sound.block (hev : ev.Sound) (b : Block) (frame : FrameId) :
    Eval.Sound h (ev.block b frame) :=
  hev.statementsFrom frame b.statements (Heap.knows_of_ref? rfl)

/-- The frame of a block is taken away at its end, and its bindings with it. -/
theorem Sound.scopedBlock (hev : ev.Sound) (b : Block) (outer : FrameId) :
    Eval.Sound h (ev.scopedBlock b outer) :=
  .inChild fun frame => hev.block b frame

/-! ### Operators and assignments -/

/-- The container of a place is evaluated before the index, and known ever after. -/
theorem Sound.place? (hev : ev.Sound) (frame : FrameId) (e : Expr) :
    Eval.Sound h (ev.place? frame e) := by
  cases e with
  | name id => exact sound_pure (Heap.knows_of_mentions rfl)
  | index left index loc =>
    refine (hev.expr left frame).bind fun _ _ container hcontainer => ?_
    refine (hev.expr index frame).bind fun _ hwithin index hindex => sound_pure ?_
    exact Heap.knows_some.mpr (Heap.knows_append.mpr ⟨hcontainer.mono hwithin, hindex⟩)
  | member object property loc =>
    exact (hev.expr object frame).bind fun _ _ _ hobject =>
      sound_pure (Heap.knows_some.mpr hobject)
  | _ => exact sound_pure Heap.knows_none

/-- For a compound assignment the place is read before the value is evaluated. -/
theorem Sound.assign (hev : ev.Sound) (target : Expr) (op : AssignOp) (value : Expr)
    (loc : Location) (frame : FrameId) :
    Eval.Sound h (ev.assign target op value loc frame) := by
  refine (hev.place? frame target).bind fun _ _ place hplace => ?_
  cases place with
  | none => exact sound_fail _ loc
  | some place =>
    have hknown := Heap.knows_some.mp hplace
    dsimp only
    cases op.binary? with
    | none =>
      refine (hev.expr value frame).bind fun _ hwithin v hv => ?_
      exact (sound_writePlace frame (hknown.mono hwithin) hv).next fun _ hmore _ =>
        sound_pure (hv.mono hmore)
    | some op =>
      refine (sound_readPlace frame place).bind fun _ hread current _ => ?_
      refine (hev.expr value frame).bind fun _ hright right _ => ?_
      refine (sound_binary op current right loc).bind fun _ hcomputed v hv => ?_
      have hwithin := (hread.trans hright).trans hcomputed
      exact (sound_writePlace frame (hknown.mono hwithin) hv).next fun _ hmore _ =>
        sound_pure (hv.mono hmore)

theorem Sound.step (hev : ev.Sound) (op : StepOp) (target : Expr) (frame : FrameId) :
    Eval.Sound h (ev.step op target frame) := by
  refine (hev.place? frame target).bind fun _ _ place hplace => ?_
  split
  · exact sound_fail _ _
  · next place =>
    have hknown := Heap.knows_some.mp hplace
    refine (sound_readPlace frame place).bind fun _ hread current _ => ?_
    split
    · refine (sound_adviseAll _ _).next fun _ hadvised _ => ?_
      have hwithin := hread.trans hadvised
      exact (sound_writePlace frame (hknown.mono hwithin) (Heap.knows_of_ref? rfl)).next
        fun _ _ _ => sound_pure (Heap.knows_pair.mpr
          ⟨Heap.knows_valueless _, Heap.knows_valueless _⟩)
    · exact sound_fail _ _

theorem Sound.unary (hev : ev.Sound) (op : PrefixOp) (right : Expr) (loc : Location)
    (frame : FrameId) : Eval.Sound h (ev.unary op right loc frame) := by
  cases op with
  | increment =>
    exact (hev.step .increment right frame).bind fun _ _ _ _ =>
      sound_plain rfl
  | decrement =>
    exact (hev.step .decrement right frame).bind fun _ _ _ _ =>
      sound_plain rfl
  | not =>
    exact (hev.holds right frame).next fun _ _ _ => sound_plain rfl
  | minus =>
    refine (hev.expr right frame).bind fun _ _ v _ => ?_
    split
    · exact sound_takeComputed (Operator.knows_settled _ _ _ _ _) loc
    · exact sound_plain rfl
    · exact sound_fail _ loc

theorem Sound.binary (hev : ev.Sound) (left : Expr) (op : BinaryOp) (right : Expr)
    (loc : Location) (frame : FrameId) :
    Eval.Sound h (ev.binary left op right loc frame) := by
  have hright : ∀ g : Heap, Eval.Sound g
      (do return Value.bool (← ev.holds right frame)) := fun _ =>
    (hev.holds right frame).next fun _ _ _ => sound_plain rfl
  unfold Evaluator.binary
  split
  · exact (hev.holds left frame).next fun _ _ _ =>
      .ite (hright _) (sound_plain rfl)
  · exact (hev.holds left frame).next fun _ _ _ =>
      .ite (sound_plain rfl) (hright _)
  · exact (hev.expr left frame).bind fun _ _ x _ =>
      (hev.expr right frame).bind fun _ _ y _ => sound_binary op x y loc

/-! ### Collections -/

/-- The elements so far are known in each heap that comes later. -/
theorem Sound.elementsFrom (hev : ev.Sound) (frame : FrameId) (elements : List Expr)
    {values : Array Value} (hvalues : h.Knows values) :
    Eval.Sound h (ev.elementsFrom frame elements values) := by
  induction elements generalizing values h with
  | nil => exact sound_pure hvalues
  | cons e elements ih =>
    cases e with
    | spread e loc =>
      refine (hev.expr e frame).bind fun _ hwithin v _ => ?_
      split
      · next cell _ =>
        refine (sound_read fun _ hm => hm.heap.items cell).bind fun _ hmore items hitems => ?_
        refine ih (Heap.knows_array.mpr fun x hx => ?_)
        rcases Array.mem_append.mp hx with hx | hx
        · exact Heap.knows_array.mp (hvalues.mono (hwithin.trans hmore)) x hx
        · exact Heap.knows_array.mp hitems x hx
      · exact sound_fail _ loc
    | _ =>
      exact (hev.expr _ frame).bind fun _ hwithin _ hv =>
        ih (Heap.knows_push (hvalues.mono hwithin) hv)

theorem Sound.arrayLiteral (hev : ev.Sound) (elements : List Expr) (frame : FrameId) :
    Eval.Sound h (ev.arrayLiteral elements frame) :=
  (hev.elementsFrom frame elements Heap.knows_empty).bind
    fun _ _ _ hitems => sound_onHeap fun _ hg hwithin => hg.newArray (hitems.mono hwithin)

/-- A later entry takes the place of an earlier one with the same key. -/
theorem Sound.entriesFrom (hev : ev.Sound) (frame : FrameId) (entries : List Entry)
    {table : ExtTreeMap MapKey MapEntry} (htable : h.Knows table) :
    Eval.Sound h (ev.entriesFrom frame entries table) := by
  induction entries generalizing table h with
  | nil => exact sound_pure htable
  | cons entry entries ih =>
    obtain ⟨keyExpr, valueExpr⟩ := entry
    refine (hev.expr keyExpr frame).bind fun _ hkeyed key hkey => ?_
    split
    · exact sound_fail _ keyExpr.loc
    · refine (hev.expr valueExpr frame).bind fun _ hwithin value hvalue => ih ?_
      exact Heap.knows_insert (htable.mono (hkeyed.trans hwithin)) (Heap.knows_valueless _)
        (Heap.knows_entry.mpr ⟨hkey.mono hwithin, hvalue⟩)

theorem Sound.mapLiteral (hev : ev.Sound) (entries : List Entry) (frame : FrameId) :
    Eval.Sound h (ev.mapLiteral entries frame) :=
  (hev.entriesFrom frame entries Heap.knows_emptyTable).bind
    fun _ _ _ htable => sound_onHeap fun _ hg hwithin => hg.newMap (htable.mono hwithin)

/-- The fields start out blank and are filled in as they are written. -/
theorem Sound.fieldsFrom (hev : ev.Sound) (frame : FrameId) (struct : StructDef)
    (fields : List Field) {table : ExtTreeMap String Value} (htable : h.Knows table) :
    Eval.Sound h (ev.fieldsFrom frame struct fields table) := by
  induction fields generalizing table h with
  | nil => exact sound_pure htable
  | cons field fields ih =>
    obtain ⟨name, valueExpr⟩ := field
    refine Eval.Sound.ite ?_ (sound_fail _ name.loc)
    exact (hev.expr valueExpr frame).bind fun _ hwithin _ hvalue =>
      ih (Heap.knows_insert (htable.mono hwithin) (Heap.knows_valueless _) hvalue)

/-- A record without values for its fields has null in all of them. -/
theorem knows_blank (d : StructDef) : h.Knows d.blank := by
  rw [StructDef.blank, ExtTreeMap.ofList_eq_insertMany_empty]
  refine Heap.knows_insertMany (Heap.knows_list.mpr fun field hfield => ?_)
    Heap.knows_emptyTable
  obtain ⟨name, -, rfl⟩ := List.mem_map.mp hfield
  exact Heap.knows_pair.mpr ⟨Heap.knows_valueless _, Heap.knows_of_ref? rfl⟩

theorem Sound.recordLiteral (hev : ev.Sound) (struct : Name) (fields : List Field)
    (frame : FrameId) : Eval.Sound h (ev.recordLiteral struct fields frame) := by
  refine (sound_lookup? frame struct.text).bind fun _ _ found _ => ?_
  split
  · next d _ =>
    refine (hev.fieldsFrom frame d fields (knows_blank d)).bind fun _ _ table htable => ?_
    exact sound_onHeap fun g hg hwithin => hg.newRecord
      (Heap.knows_record (r := { struct := d, fields := table }) |>.mpr (htable.mono hwithin))
  · exact sound_fail _ struct.loc

theorem Sound.index (hev : ev.Sound) (left index : Expr) (loc : Location)
    (frame : FrameId) : Eval.Sound h (ev.index left index loc frame) :=
  (hev.expr left frame).bind fun _ _ container _ =>
    (hev.expr index frame).bind fun _ _ index _ =>
      sound_askHeap loc fun _ hg _ => hg.element container index

theorem Sound.slice (hev : ev.Sound) (left : Expr) (start stop : Option Expr)
    (loc : Location) (frame : FrameId) :
    Eval.Sound h (ev.slice left start stop loc frame) :=
  (hev.expr left frame).bind fun _ _ container _ =>
    (hev.optional frame start).bind fun _ _ first _ =>
      (hev.optional frame stop).bind fun _ _ last _ =>
        (sound_askHeap loc fun _ hg _ => hg.slice container first last).bind
          fun _ _ _ hanswer => sound_take hanswer

/-- To read a member gives what a container has, or a method. -/
theorem Sound.member (hev : ev.Sound) (object : Expr) (property : Name) (loc : Location)
    (frame : FrameId) : Eval.Sound h (ev.member object property loc frame) :=
  (hev.expr object frame).bind fun _ _ object _ =>
    sound_askHeap loc fun _ hg _ => hg.member object property.text

theorem Sound.range (hev : ev.Sound) (start stop : Expr) (loc : Location)
    (frame : FrameId) : Eval.Sound h (ev.range start stop loc frame) := by
  refine (hev.expr start frame).bind fun _ _ first _ => ?_
  refine (hev.expr stop frame).bind fun _ _ last _ => ?_
  split
  · exact sound_plain rfl
  · exact sound_fail _ loc

/-! ### Built-in functions -/

/-- The items were listed before the first call, and calls take none of them away. -/
theorem Sound.mapEach (hev : ev.Sound) {f : Value} (hf : h.Knows f) (loc : Location)
    {items : List Value} (hitems : h.Knows items) {results : Array Value}
    (hresults : h.Knows results) : Eval.Sound h (ev.mapEach f loc items results) := by
  induction items generalizing results h with
  | nil => exact sound_pure hresults
  | cons item items ih =>
    rw [Heap.knows_cons] at hitems
    refine (hev.apply hf (Heap.knows_cons.mpr ⟨hitems.1, Heap.knows_nil⟩) loc).bind
      fun _ hwithin v hv => ?_
    exact ih (hf.mono hwithin) (hitems.2.mono hwithin)
      (Heap.knows_push (hresults.mono hwithin) hv)

theorem Sound.filterEach (hev : ev.Sound) {f : Value} (hf : h.Knows f) (loc : Location)
    {items : List Value} (hitems : h.Knows items) {kept : Array Value}
    (hkept : h.Knows kept) : Eval.Sound h (ev.filterEach f loc items kept) := by
  induction items generalizing kept h with
  | nil => exact sound_pure hkept
  | cons item items ih =>
    rw [Heap.knows_cons] at hitems
    refine (hev.apply hf (Heap.knows_cons.mpr ⟨hitems.1, Heap.knows_nil⟩) loc).bind
      fun _ hcalled v _ => ?_
    refine (sound_read fun _ _ => Heap.knows_valueless _).next fun _ hread _ => ?_
    have hwithin := hcalled.trans hread
    have hrest := hitems.2.mono hwithin
    exact .ite
      (ih (hf.mono hwithin) hrest
        (Heap.knows_push (hkept.mono hwithin) (hitems.1.mono hwithin)))
      (ih (hf.mono hwithin) hrest (hkept.mono hwithin))

/-- The result so far is what the last call has given. -/
theorem Sound.reduceEach (hev : ev.Sound) {f : Value} (hf : h.Knows f) (loc : Location)
    {items : List Value} (hitems : h.Knows items) {result : Value}
    (hresult : h.Knows result) : Eval.Sound h (ev.reduceEach f loc items result) := by
  induction items generalizing result h with
  | nil => exact sound_pure hresult
  | cons item items ih =>
    rw [Heap.knows_cons] at hitems
    have hargs : h.Knows [result, item] :=
      Heap.knows_cons.mpr ⟨hresult, Heap.knows_cons.mpr ⟨hitems.1, Heap.knows_nil⟩⟩
    exact (hev.apply hf hargs loc).bind fun _ hwithin _ hv =>
      ih (hf.mono hwithin) (hitems.2.mono hwithin) hv

/-- The items are those of an array, and the function is an argument. -/
theorem sound_itemsAndFunction (b : Builtin) (items : Value) {f : Value}
    (hf : h.Knows f) (loc : Location) :
    Eval.Sound h (itemsAndFunction b items f loc) := by
  refine sound_askHeap loc fun g hg hwithin => ?_
  have hknown := Builtin.knows_arrayArg hg b 1 items
  refine Heap.knows_bind fun given hgiven => Heap.knows_bind fun function hfunction => ?_
  rw [hgiven] at hknown
  have hsame : function = f := by
    unfold Builtin.functionArg at hfunction
    split at hfunction <;> cases hfunction
    rfl
  exact Heap.knows_ok.mpr (Heap.knows_pair.mpr
    ⟨Heap.knows_toList.mpr (Heap.knows_ok.mp hknown), hsame ▸ hf.mono hwithin⟩)

theorem Sound.mapArray (hev : ev.Sound) (loc : Location) {args : List Value}
    (hargs : h.Knows args) : Eval.Sound h (ev.mapArray loc args) := by
  unfold Evaluator.mapArray
  split
  · next items f =>
    have hf := Heap.knows_list.mp hargs f (by simp)
    refine (sound_itemsAndFunction .map items hf loc).bind fun _ _ given hgiven => ?_
    rw [Heap.knows_pair] at hgiven
    exact (hev.mapEach hgiven.2 loc hgiven.1 Heap.knows_empty).bind
      fun _ _ _ hresults => sound_onHeap fun _ hg hwithin =>
        hg.newArray (hresults.mono hwithin)
  · exact sound_askError loc

theorem Sound.filterArray (hev : ev.Sound) (loc : Location) {args : List Value}
    (hargs : h.Knows args) : Eval.Sound h (ev.filterArray loc args) := by
  unfold Evaluator.filterArray
  split
  · next items f =>
    have hf := Heap.knows_list.mp hargs f (by simp)
    refine (sound_itemsAndFunction .filter items hf loc).bind fun _ _ given hgiven => ?_
    rw [Heap.knows_pair] at hgiven
    exact (hev.filterEach hgiven.2 loc hgiven.1 Heap.knows_empty).bind
      fun _ _ _ hkept => sound_onHeap fun _ hg hwithin => hg.newArray (hkept.mono hwithin)
  · exact sound_askError loc

theorem Sound.reduceArray (hev : ev.Sound) (loc : Location) {args : List Value}
    (hargs : h.Knows args) : Eval.Sound h (ev.reduceArray loc args) := by
  unfold Evaluator.reduceArray
  split
  · next items f start =>
    have hf := Heap.knows_list.mp hargs f (by simp)
    have hstart := Heap.knows_list.mp hargs start (by simp)
    refine (sound_itemsAndFunction .reduce items hf loc).bind
      fun _ hwithin given hgiven => ?_
    rw [Heap.knows_pair] at hgiven
    exact hev.reduceEach hgiven.2 loc hgiven.1 (hstart.mono hwithin)
  · exact sound_askError loc

/-- By the built-in functions that call, change a container, print or read; the others
only ask the heap. -/
theorem Sound.callBuiltin (hev : ev.Sound) (f : Builtin) {args : List Value}
    (hargs : h.Knows args) (loc : Location) :
    Eval.Sound h (ev.callBuiltin f args loc) := by
  unfold Evaluator.callBuiltin
  split
  · next ask hask =>
    exact (sound_askHeap loc fun _ hg _ => Builtin.knows_of_reply? hg hask args).bind
      fun _ _ _ hanswer => sound_take hanswer
  · split
    · exact sound_push loc hargs
    · exact sound_pop loc args
    · exact hev.mapArray loc hargs
    · exact hev.filterArray loc hargs
    · exact hev.reduceArray loc hargs
    · exact sound_input loc args
    · exact sound_printLine args

/-! ### Functions and calls -/

/-- The receiver and the arguments are bound in the frame of the call. -/
theorem Sound.runBody (hev : ev.Sound) (f : Closure) {args : List Value}
    (hargs : h.Knows args) {receiver : Option Value} (hreceiver : h.Knows receiver)
    (loc : Location) (frame : FrameId) :
    Eval.Sound h (ev.runBody f args receiver loc frame) := by
  have hbody : ∀ g, h.Within g → Eval.Sound g (do
      Eval.bindParams f.name f.code.params args frame loc
      Eval.inCall ev.settings.callLimit f.name loc
        (Eval.complete (ev.block f.code.body frame))) := fun _ hwithin =>
    (sound_bindParams _ _ (hargs.mono hwithin) frame loc).next fun _ _ _ =>
      (hev.block f.code.body frame).complete.inCall
  cases receiver with
  | none => exact hbody h (.refl h)
  | some v =>
    exact (sound_define frame "self" (Heap.knows_some.mp hreceiver)).next
      fun _ hwithin _ => hbody _ hwithin

/-- The frame of the call lies inside that of the closure. -/
theorem Sound.callFunction (hev : ev.Sound) (f : Closure) {args : List Value}
    (hargs : h.Knows args) {receiver : Option Value} (hreceiver : h.Knows receiver)
    (loc : Location) : Eval.Sound h (ev.callFunction f args receiver loc) :=
  .ite
    ((Eval.Sound.inChild fun frame => hev.runBody f hargs hreceiver loc frame).bind
      fun _ _ _ hc => sound_checkReturn f hc loc)
    (sound_fail _ loc)

/-- An arrow function has an expression for its body. -/
theorem Sound.callArrow (hev : ev.Sound) (f : ArrowClosure) {args : List Value}
    (hargs : h.Knows args) (loc : Location) : Eval.Sound h (ev.callArrow f args loc) := by
  refine Eval.Sound.ite ?_ (sound_fail _ loc)
  refine Eval.Sound.bind (Eval.Sound.inCall (Eval.Sound.inChild fun frame => ?_))
    fun _ _ _ hc => sound_pure hc
  exact (sound_bindNames frame f.params hargs).next fun _ _ _ =>
    (hev.expr f.body frame).complete

/-- By what is called.  What cannot be called gives a report. -/
theorem Sound.call (hev : ev.Sound) (callee : Value) {args : List Value}
    (hargs : h.Knows args) (loc : Location) : Eval.Sound h (ev.call callee args loc) := by
  unfold Evaluator.call
  split
  · exact hev.callFunction _ hargs Heap.knows_none loc
  · exact hev.callArrow _ hargs loc
  · exact hev.callBuiltin _ hargs loc
  · exact sound_fail _ loc

/-- The receiver becomes the first argument. -/
theorem Sound.callFree (hev : ev.Sound) (free : Option Value) {receiver : Value}
    (hreceiver : h.Knows receiver) {args : List Value} (hargs : h.Knows args)
    (problem : Problem) (loc : Location) :
    Eval.Sound h (ev.callFree free receiver args problem loc) := by
  cases free with
  | none => exact sound_fail problem loc
  | some f =>
    exact hev.call f (Heap.knows_cons.mpr ⟨hreceiver, hargs⟩) loc

/-- Looks something up that what comes next does not need to be known of. -/
theorem sound_readBind {α β : Type} [Mentioning β] {f : Machine → α}
    {rest : α → Eval β} (hrest : ∀ x, Eval.Sound h (rest x)) :
    Eval.Sound h (Eval.read f >>= rest) :=
  fun m hm => hrest (f m) m hm

/-- A method, a field that can be called, or a function that is free. -/
theorem Sound.callMember (hev : ev.Sound) {receiver : Value} (hreceiver : h.Knows receiver)
    (name : String) {args : List Value} (hargs : h.Knows args) (frame : FrameId)
    (loc : Location) : Eval.Sound h (ev.callMember receiver name args frame loc) := by
  refine sound_readBind fun free => ?_
  split
  · refine sound_readBind fun r => sound_readBind fun found => ?_
    split
    · exact hev.callFunction _ hargs (Heap.knows_some.mpr hreceiver) loc
    · split
      · exact hev.call _ hargs loc
      · exact hev.callFree free hreceiver hargs _ loc
  · refine sound_readBind fun found => ?_
    split
    · exact hev.callFunction _ hargs Heap.knows_none loc
    · exact hev.callFree free hreceiver hargs _ loc
  · exact sound_readBind fun v => .ite (hev.call v hargs loc)
      (hev.callFree free hreceiver hargs _ loc)
  · exact hev.callFree free hreceiver hargs _ loc

/-- Of a member only the object is evaluated, and in any case before the arguments. -/
theorem Sound.callExpr (hev : ev.Sound) (callee : Expr) (args : List Expr)
    (loc : Location) (frame : FrameId) :
    Eval.Sound h (ev.callExpr callee args loc frame) := by
  have hargs : ∀ g : Heap, Eval.Sound g (ev.elementsFrom frame args #[]) := fun _ =>
    hev.elementsFrom frame args Heap.knows_empty
  unfold Evaluator.callExpr
  split
  · refine (hev.expr _ frame).bind fun _ _ receiver hreceiver => ?_
    exact (hargs _).bind fun _ hwithin values hvalues =>
      hev.callMember (hreceiver.mono hwithin) _ (Heap.knows_toList.mpr hvalues) frame loc
  · refine (hev.expr _ frame).bind fun _ _ f _ => ?_
    exact (hargs _).bind fun _ _ values hvalues => hev.call f (Heap.knows_toList.mpr hvalues) loc

/-! ### Loops -/

/-- Each round has a frame of its own for the names of the loop. -/
theorem Sound.roundWith (hev : ev.Sound) (names : LoopNames) (body : Block)
    (frame : FrameId) (keyed : Bool) {key value : Value} (hkey : h.Knows key)
    (hvalue : h.Knows value) :
    Eval.Sound h (ev.roundWith names body frame keyed key value) :=
  .inChild fun scope => (names.sound_bind scope keyed hkey hvalue).next fun _ _ _ =>
    (hev.block body scope).goesOn

/-- The pairs were taken from the container at the start, and they stay known. -/
theorem Sound.walkPairs (hev : ev.Sound) (names : LoopNames) (body : Block)
    (frame : FrameId) (keyed : Bool) {pairs : List (Value × Value)}
    (hpairs : h.Knows pairs) :
    Eval.Sound h (ev.walkPairs names body frame keyed pairs) := by
  induction pairs generalizing h with
  | nil => exact sound_plain rfl
  | cons pair pairs ih =>
    rw [Heap.knows_cons, Heap.knows_pair] at hpairs
    refine (hev.roundWith names body frame keyed hpairs.1.1 hpairs.1.2).next
      fun _ hwithin _ => ?_
    exact .ite (ih (hpairs.2.mono hwithin))
      (sound_plain rfl)

/-- The numbers of a range are no containers. -/
theorem Sound.walkNumbers (hev : ev.Sound) (names : LoopNames) (body : Block)
    (frame : FrameId) (stop : Int64) (i : Nat) (number : Int64) :
    Eval.Sound h (ev.walkNumbers names body frame stop i number) := by
  induction number using Range.way_induction stop generalizing i h with
  | arrived =>
    rw [walkNumbers_stop]
    exact sound_plain rfl
  | onTheWay number hne ih =>
    rw [walkNumbers_of_ne ev hne]
    exact (hev.roundWith names body frame false (Heap.knows_of_ref? rfl)
      (Heap.knows_of_ref? rfl)).next fun _ _ _ =>
        .ite (ih (i + 1)) (sound_plain rfl)

/-- What is walked over is found out once, before the first round. -/
theorem Sound.forEach (hev : ev.Sound) (names : LoopNames) (iterable : Expr)
    (body : Block) (frame : FrameId) :
    Eval.Sound h (ev.forEach names iterable body frame) := by
  refine (hev.expr iterable frame).bind fun _ _ v _ => ?_
  refine (sound_askHeap iterable.loc fun _ hg _ => hg.walk v).bind fun _ _ walk hwalk => ?_
  split
  · exact hev.walkPairs names body frame false hwalk
  · exact hev.walkPairs names body frame true hwalk
  · exact hev.walkNumbers names body frame _ 0 _

theorem Sound.round (hev : ev.Sound) (body : Block) (frame : FrameId) :
    Eval.Sound h (ev.round body frame) :=
  .inChild fun scope => (hev.block body scope).goesOn

/-- The induction is on the bound for rounds. -/
theorem Sound.whileRounds (hev : ev.Sound) (condition : Expr) (body : Block)
    (frame : FrameId) (n : Nat) :
    Eval.Sound h (ev.whileRounds condition body frame n) := by
  induction n generalizing h with
  | zero => exact sound_outOfBound
  | succ n ih =>
    refine (hev.holds condition frame).next fun _ _ _ => ?_
    refine .ite ?_ (sound_plain rfl)
    exact (hev.round body frame).next fun _ _ _ =>
      .ite ih (sound_plain rfl)

theorem Sound.whileLoop (hev : ev.Sound) (condition : Expr) (body : Block)
    (loc : Location) (frame : FrameId) :
    Eval.Sound h (ev.whileLoop condition body loc frame) := by
  have hloop : ∀ g : Heap, Eval.Sound g
      (Eval.inLoop loc (ev.whileRounds condition body frame ev.rounds)) := fun _ =>
    (hev.whileRounds condition body frame ev.rounds).inLoop
  refine Eval.Sound.ite ?_ (hloop h)
  exact (sound_advise _ loc).next fun _ _ _ => hloop _

theorem Sound.continues (hev : ev.Sound) (condition : Option Expr) (frame : FrameId) :
    Eval.Sound h (ev.continues condition frame) := by
  cases condition with
  | none => exact sound_pure (Heap.knows_valueless true)
  | some e => exact hev.holds e frame

theorem Sound.countingRounds (hev : ev.Sound) (condition update : Option Expr)
    (body : Block) (frame : FrameId) (n : Nat) :
    Eval.Sound h (ev.countingRounds condition update body frame n) := by
  induction n generalizing h with
  | zero => exact sound_outOfBound
  | succ n ih =>
    refine (hev.continues condition frame).next fun _ _ _ => ?_
    refine .ite ?_ (sound_plain rfl)
    refine (hev.round body frame).next fun _ _ _ => ?_
    refine .ite ?_ (sound_plain rfl)
    exact (hev.optional frame update).bind fun _ _ _ _ => ih

/-- The names of the header have a frame around all rounds. -/
theorem Sound.countingLoop (hev : ev.Sound) (start : Option Stmt)
    (condition update : Option Expr) (body : Block) (frame : FrameId) :
    Eval.Sound h (ev.countingLoop start condition update body frame) := by
  refine .inChild fun scope => ?_
  cases start with
  | none => exact hev.countingRounds condition update body scope ev.rounds
  | some s =>
    exact (hev.stmt s scope).bind fun _ _ _ _ =>
      hev.countingRounds condition update body scope ev.rounds

theorem Sound.forLoop (hev : ev.Sound) (header : LoopHeader) (body : Block)
    (loc : Location) (frame : FrameId) :
    Eval.Sound h (ev.forLoop header body loc frame) := by
  refine Eval.Sound.inLoop ?_
  split
  · exact hev.forEach _ _ body frame
  · exact hev.forEach _ _ body frame
  · exact hev.countingLoop _ _ _ body frame

/-! ### Choices -/

theorem Sound.scopedBlock? (hev : ev.Sound) (frame : FrameId) (b : Option Block) :
    Eval.Sound h (ev.scopedBlock? frame b) := by
  cases b with
  | none => exact sound_plain rfl
  | some b => exact hev.scopedBlock b frame

/-- The condition gives a truth value, which is no container. -/
theorem Sound.branch (hev : ev.Sound) (condition : Expr) (consequence : Block)
    (alternative : Option Block) (frame : FrameId) :
    Eval.Sound h (ev.branch condition consequence alternative frame) :=
  (hev.holds condition frame).next fun _ _ _ =>
    .ite (hev.scopedBlock consequence frame) (hev.scopedBlock? frame alternative)

theorem Sound.ternary (hev : ev.Sound) (condition consequence alternative : Expr)
    (frame : FrameId) :
    Eval.Sound h (ev.ternary condition consequence alternative frame) :=
  (hev.holds condition frame).next fun _ _ _ =>
    .ite (hev.expr consequence frame) (hev.expr alternative frame)

theorem Sound.selects (hev : ev.Sound) (subject : Value) (frame : FrameId)
    (values : List Expr) : Eval.Sound h (ev.selects subject frame values) := by
  induction values generalizing h with
  | nil => exact sound_pure (Heap.knows_valueless false)
  | cons e values ih =>
    exact (hev.expr e frame).bind fun _ _ v _ => sound_readBind fun _ =>
      .ite (sound_pure (Heap.knows_valueless true)) ih

/-- The subject is known through all comparisons. -/
theorem Sound.switchCases (hev : ev.Sound) (subject : Value) (default : Option Block)
    (frame : FrameId) (cases : List Case) :
    Eval.Sound h (ev.switchCases subject default frame cases) := by
  induction cases generalizing h with
  | nil => exact hev.scopedBlock? frame default
  | cons c cases ih =>
    exact (hev.selects subject frame c.values).next fun _ _ _ =>
      .ite (hev.scopedBlock c.body frame) ih

theorem Sound.switch (hev : ev.Sound) (subject : Expr) (cases : List Case)
    (default : Option Block) (frame : FrameId) :
    Eval.Sound h (ev.switch subject cases default frame) :=
  (hev.expr subject frame).bind fun _ _ v _ => hev.switchCases v default frame cases

/-- The problem is bound as a text. -/
theorem Sound.handle (hev : ev.Sound) (t : Attempt) (frame : FrameId)
    (problem : Problem) : Eval.Sound h (ev.handle t frame problem) := by
  unfold Evaluator.handle
  split
  · exact sound_plain rfl
  · refine .inChild fun scope => ?_
    split
    · exact (sound_define scope _ (Heap.knows_of_ref? rfl)).next fun _ _ _ =>
        hev.block _ scope
    · exact hev.block _ scope

/-- A problem that is caught leaves the machine as it was when it came up. -/
theorem Sound.attempt (hev : ev.Sound) (t : Attempt) (frame : FrameId) :
    Eval.Sound h (ev.attempt t frame) :=
  (hev.scopedBlock t.body frame).orElse (hev.handle t frame)

/-! ### Declarations -/

/-- The value is checked against the annotation before it is bound. -/
theorem Sound.declare (hev : ev.Sound) (constant : Bool) (name : Name)
    (type : Option TypeExpr) (value : Expr) (loc : Location) (frame : FrameId) :
    Eval.Sound h (ev.declare constant name type value loc frame) := by
  refine (hev.expr value frame).bind fun _ _ v hv => ?_
  cases type with
  | none => exact sound_bindVariable constant name hv loc frame
  | some type =>
    exact (sound_checkBinding _ type v frame loc).next fun _ hwithin _ =>
      sound_bindVariable constant name (hv.mono hwithin) loc frame

theorem Sound.leaveWith (hev : ev.Sound) (value : Option Expr) (frame : FrameId) :
    Eval.Sound h (ev.leaveWith value frame) :=
  (hev.optional frame value).bind fun _ _ _ hv => sound_leave (Builtin.knows_getD_null hv)

/-! ### The whole -/

/-- One case for each form of expressions. -/
theorem Sound.evalExpr (hev : ev.Sound) (frame : FrameId) (e : Expr) :
    Eval.Sound h (ev.evalExpr frame e) := by
  cases e with
  | name id => exact sound_nameValue id frame
  | int value loc => exact sound_plain rfl
  | float literal loc => exact sound_plain rfl
  | str value loc => exact sound_plain rfl
  | bool value loc => exact sound_plain rfl
  | unary op right loc => exact hev.unary op right loc frame
  | binary left op right loc => exact hev.binary left op right loc frame
  | step op target loc =>
    exact (hev.step op target frame).bind fun _ _ _ _ => sound_plain rfl
  | assign target op value loc => exact hev.assign target op value loc frame
  | branch condition consequence alternative loc =>
    exact hev.branch condition consequence alternative frame
  | function f =>
    exact (sound_makeFunction f frame).next fun _ _ _ => sound_plain rfl
  | arrow params body loc => exact sound_makeArrow params body frame
  | call callee args loc => exact hev.callExpr callee args loc frame
  | array elements loc => exact hev.arrayLiteral elements frame
  | index left index loc => exact hev.index left index loc frame
  | slice left start stop loc => exact hev.slice left start stop loc frame
  | spread e loc => exact sound_fail _ loc
  | map entries loc => exact hev.mapLiteral entries frame
  | member object property loc => exact hev.member object property loc frame
  | record struct fields loc => exact hev.recordLiteral struct fields frame
  | whileLoop condition body loc => exact hev.whileLoop condition body loc frame
  | forLoop header body loc => exact hev.forLoop header body loc frame
  | switch subject cases default loc => exact hev.switch subject cases default frame
  | ternary condition consequence alternative loc =>
    exact hev.ternary condition consequence alternative frame
  | range start stop loc => exact hev.range start stop loc frame
  | attempt t => exact hev.attempt t frame

/-- One case for each form of statements. -/
theorem Sound.evalStmt (hev : ev.Sound) (frame : FrameId) (s : Stmt) :
    Eval.Sound h (ev.evalStmt frame s) := by
  cases s with
  | bind constant name type value loc =>
    exact hev.declare constant name type value loc frame
  | ret value loc => exact hev.leaveWith value frame
  | includes modules grouped loc => exact sound_includeModules hev.library loc frame modules
  | attempt t => exact hev.attempt t frame
  | struct name fields loc => exact sound_declareStruct name fields frame
  | enum name variants loc => exact sound_declareEnum name variants frame
  | method struct f loc => exact sound_declareMethod struct f frame
  | brk loc => exact sound_leave (Heap.knows_of_mentions rfl)
  | cont loc => exact sound_leave (Heap.knows_of_mentions rfl)
  | expr e loc => exact hev.expr e frame

/-- A task is an expression, a statement or a call. -/
theorem Sound.evalTask (hev : ev.Sound) {task : Task} (htask : h.Knows task.given) :
    Eval.Sound h (ev.evalTask task) := by
  cases task with
  | expr e frame => exact hev.evalExpr frame e
  | stmt s frame => exact hev.evalStmt frame s
  | apply callee args loc =>
    exact hev.call callee (Heap.knows_cons.mp htask).2 loc

/-- A program is its statements, with signals that have no place there turned into
reports. -/
theorem Sound.program (hev : ev.Sound) (p : Program) : Eval.Sound h (ev.program p) :=
  (hev.statementsFrom Arena.root p.statements (Heap.knows_of_ref? rfl)).complete.bind
    fun _ _ _ hc => sound_pure hc

/-- Whatever is evaluated, the machine stays whole. -/
theorem bounded_sound {settings : Settings} (hlibrary : settings.library.WithoutContainers)
    (n : Nat) : (Evaluator.bounded settings n).Sound := by
  induction n with
  | zero => exact ⟨fun _ _ _ => sound_outOfBound, hlibrary⟩
  | succ n ih =>
    have hparts : Sound { settings, rounds := n, run := evaluate settings n } := ih
    exact ⟨fun _ _ htask => hparts.evalTask htask, hlibrary⟩

end Evaluator

namespace Machine

variable {settings : Settings} {m m' : Machine}

/-- At the start there are no containers and one empty frame, so nothing can dangle. -/
theorem whole_start (input : String) (layout : Layout) :
    (start input layout).Whole :=
  whole_iff.mpr ⟨Heap.knows_new, Heap.whole_empty layout⟩

/-- Nothing that is evaluated leaves a reference dangling or loses a container, however it
ends. -/
theorem Whole.evaluate (hlibrary : settings.library.WithoutContainers) (hm : m.Whole)
    (n : Nat) {task : Task} (htask : m.heap.Knows task.given)
    (hend : (Script.evaluate settings n task m).machine? = some m') : m'.Keeps m.heap :=
  ((Evaluator.bounded_sound hlibrary n).run m.heap task htask m hm.keeps).keeps hend

theorem Whole.program (hlibrary : settings.library.WithoutContainers) (hm : m.Whole)
    (n : Nat) (p : Program)
    (hend : ((Evaluator.bounded settings n).program p m).machine? = some m') :
    m'.Whole :=
  (((Evaluator.bounded_sound hlibrary n).program p m hm.keeps).keeps hend).whole

/-- A text that is refused leaves the machine as it was, but for the source. -/
theorem Whole.runSource (hlibrary : settings.library.WithoutContainers) (hm : m.Whole)
    {bound : Nat} {file source : String} {result : Except RunFailure Value}
    (hrun : m.runSource settings bound file source = some (result, m')) : m'.Whole := by
  unfold Machine.runSource at hrun
  simp only at hrun
  split at hrun
  · rw [Option.some.injEq, Prod.mk.injEq] at hrun
    rw [← hrun.2]
    exact hm
  · exact Whole.program (m := { m with source := some source }) hlibrary hm bound _
      (machine?_of_runProgram hrun)

/-- Between the programs of a session the machine is whole, whether they gave values or
failed. -/
theorem InSession.whole (hlibrary : settings.library.WithoutContainers)
    (hm : m.InSession settings) : m.Whole := by
  induction hm with
  | start input layout => exact whole_start input layout
  | take _ ih => exact ih
  | run _ hrun ih => exact ih.runSource hlibrary hrun

end Machine

end Script
