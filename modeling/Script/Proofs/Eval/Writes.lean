import Script.Proofs.Eval.Balance
import Script.Proofs.Eval.Constants
import Script.Proofs.Eval.Spots
import Script.Proofs.Eval.Turns
import Script.Proofs.Eval.Wholeness

/-!
# Writes succeed as a whole or change nothing

A declaration, an assignment or a step first evaluates the expressions in it, each one
once.  If they give values, it either fails, and then the frames and the heap are what
the last expression has left, or it writes to one spot, which is the one that its target
stands for, and to no other.
-/

namespace Script

open Scope (Arena Binding FrameId)
open Std (ExtTreeMap)

/-! ### The forms of writes -/

/-- The forms that give a value to a name or to a part of a container. -/
inductive Write where
  /-- `let` and `const`. -/
  | declare (constant : Bool) (name : Name) (type : Option TypeExpr) (value : Expr)
      (loc : Location)
  /-- `=` and the compound assignments. -/
  | assign (target : Expr) (op : AssignOp) (value : Expr) (loc : Location)
  /-- A step behind its target, such as `x++`. -/
  | step (op : StepOp) (target : Expr) (loc : Location)
  /-- A step in front of its target, such as `++x`. -/
  | stepFirst (op : StepOp) (target : Expr) (loc : Location)

/-- The expressions in a target, in the order in which they are evaluated. -/
def Expr.targetParts : Expr → List Expr
  | .index left position _ => [left, position]
  | .member object _ _ => [object]
  | _ => []

/-- The place of a target whose parts have the values. -/
def Expr.placeOf? : Expr → List Value → Option Place
  | .name id, _ => some (.name id)
  | .index _ _ loc, container :: position :: _ => some (.element container position loc)
  | .member _ property loc, object :: _ => some (.member object property.text loc)
  | _, _ => none

namespace Write

/-- The whole expression or statement. -/
def task (frame : FrameId) : Write → Task
  | declare constant name type value loc => .stmt (.bind constant name type value loc) frame
  | assign target op value loc => .expr (.assign target op value loc) frame
  | step op target loc => .expr (.step op target loc) frame
  | stepFirst op target loc => .expr (.unary op.prefixOp target loc) frame

/-- The expressions in a write, in the order in which they are evaluated. -/
def parts : Write → List Expr
  | declare _ _ _ value _ => [value]
  | assign target _ value _ => target.targetParts ++ [value]
  | step _ target _ | stepFirst _ target _ => target.targetParts

end Write

/-! ### What is written to -/

/-- The spot that a place stands for.  A name that is not bound is bound in the frame. -/
inductive Machine.Addresses (m : Machine) (frame : FrameId) : Place → Spot → Prop where
  | bound {id : Name} {owner : FrameId} {found : Binding Value}
      (hfound : m.scopes.resolve? frame id.text = some (owner, found)) :
      Addresses m frame (.name id) (.binding owner id.text)
  | unbound {id : Name} (hnone : m.scopes.resolve? frame id.text = none) :
      Addresses m frame (.name id) (.binding frame id.text)
  | element {cell i : Nat} {index : Int64} {loc : Location}
      (hposition : Heap.position index (m.heap.items cell).size = .ok i) :
      Addresses m frame (.element (.array cell) (.int index) loc) (.element cell i)
  | entry {cell : Nat} {index : Value} {key : MapKey} {loc : Location}
      (hkey : index.mapKey? = some key) :
      Addresses m frame (.element (.map cell) index loc) (.entry cell key)
  | namedEntry {cell : Nat} {name : String} {loc : Location} :
      Addresses m frame (.member (.map cell) name loc) (.entry cell (Value.textKey name))
  | field {cell : Nat} {name : String} {loc : Location}
      (hthere : name ∈ (m.heap.instanceAt cell).fields) :
      Addresses m frame (.member (.record cell) name loc) (.field cell name)

namespace Write

/-- The spot that a write is about, if its parts have the values.  A declaration is about
the frame itself, wherever else its name may be bound. -/
def Addresses (w : Write) (frame : FrameId) (values : List Value) (m : Machine)
    (spot : Spot) : Prop :=
  match w with
  | declare _ name .. => spot = .binding frame name.text
  | assign target .. | step _ target _ | stepFirst _ target _ =>
    ∃ place, target.placeOf? values = some place ∧ m.Addresses frame place spot

/-- The value of a write, and the value that it has written. -/
def Gives (w : Write) (values : List Value) (result written : Value) : Prop :=
  match w with
  | declare .. => result = .null ∧ values = [written]
  | assign _ op .. => result = written ∧ (op.binary? = none → values.getLast? = some written)
  | step op .. => ∃ old, result = .int old ∧ written = .int (Evaluator.stepped op old).1
  | stepFirst op .. => result = written ∧ ∃ old, written = .int (Evaluator.stepped op old).1

end Write

/-- The second machine has the frames and containers of the first.  At most something has
been noticed, and there is a new array, which is the value that is to be written; nothing
mentions it yet. -/
inductive Machine.Untouched (m : Machine) (v : Value) : Machine → Prop where
  | noted {m' : Machine} (hnoted : m.Noted m') : Untouched m v m'
  | made {items : Array Value} {m' : Machine} (hv : v = .array m.heap.arrays.size)
      (hnoted : Noted { m with heap := (m.heap.newArray items).2 } m')
      (hlost : Ref.array m.heap.arrays.size ∉ mentions m') : Untouched m v m'

/-- How a write ends. -/
inductive Write.Ends (w : Write) (ev : Evaluator) (frame : FrameId) (m : Machine) :
    Outcome Value → Prop where
  /-- A part gives no value, and the whole ends as it does. -/
  | stops {o : Outcome Value}
      (hstops : Eval.StopsIn (fun e => ev.expr e frame) w.parts m o) : Ends w ev frame m o
  /-- The parts that are evaluated give values, and then the write fails: nothing has been
  written. -/
  | fails {parts rest : List Expr} {values : List Value} {v : Value} {m₁ m₂ : Machine}
      {problem : Problem} {loc : Location} (hparts : w.parts = parts ++ rest)
      (hvalues : Eval.InTurn (fun e => ev.expr e frame) parts m values m₁)
      (huntouched : m₁.Untouched v m₂) : Ends w ev frame m (.left (.failed problem loc) m₂)
  /-- All parts give values, and then one spot is written to. -/
  | writes {values : List Value} {m₁ m₂ m₃ : Machine} {spot : Spot} {c : Content}
      {result : Value}
      (hvalues : Eval.InTurn (fun e => ev.expr e frame) w.parts m values m₁)
      (hready : m₁.Untouched c.written m₂) (hspot : w.Addresses frame values m₂ spot)
      (hdiffers : m₂.DiffersAt spot c m₃) (hgives : w.Gives values result c.written) :
      Ends w ev frame m (.done result m₃)

namespace Machine

variable {m m' m'' : Machine} {v : Value}

theorem Untouched.refl (m : Machine) (v : Value) : m.Untouched v m := .noted (.refl m)

theorem Untouched.scopes_eq (h : m.Untouched v m') : m'.scopes = m.scopes := by
  cases h with
  | noted hnoted =>
    obtain ⟨advisories, rfl⟩ := hnoted
    rfl
  | made _ hnoted =>
    obtain ⟨advisories, rfl⟩ := hnoted
    rfl

theorem Untouched.within (h : m.Untouched v m') : m.heap.Within m'.heap := by
  cases h with
  | noted hnoted =>
    obtain ⟨advisories, rfl⟩ := hnoted
    exact .refl _
  | made _ hnoted =>
    obtain ⟨advisories, rfl⟩ := hnoted
    exact Heap.within_of_size_le (by simp [Heap.newArray]) (Nat.le_refl _) (Nat.le_refl _)

/-- A new array is not mentioned before its value goes anywhere. -/
theorem Whole.not_mem_mentions_newArray (hwhole : m.Whole) {items : Array Value}
    (hitems : m.heap.Knows items) (advisories : Advisories) :
    Ref.array m.heap.arrays.size ∉
      mentions { m with heap := (m.heap.newArray items).2, advisories } := by
  obtain ⟨hscopes, hheap⟩ := whole_iff.mp hwhole
  obtain ⟨harrays, hmaps, hrecords⟩ := Heap.whole_iff.mp hheap
  have hknown : m.heap.Knows { m with heap := (m.heap.newArray items).2, advisories } :=
    Heap.knows_append.mpr ⟨hscopes,
      Heap.knows_heap.mpr ⟨Heap.knows_push harrays hitems, hmaps, hrecords⟩⟩
  exact fun hmentioned =>
    Nat.lt_irrefl _ (Heap.mem_refs_array.mp (hknown _ hmentioned))

end Machine

/-! ### Places -/

namespace Eval

variable {m : Machine} {frame : FrameId} {place : Place}

/-- Reading a place changes nothing. -/
theorem readPlace_cases (frame : FrameId) (place : Place) (m : Machine) :
    (∃ v, readPlace frame place m = .done v m) ∨
    ∃ problem loc, readPlace frame place m = .left (.failed problem loc) m := by
  cases place with
  | name id =>
    unfold readPlace nameValue
    dsimp only
    split
    · exact Or.inl ⟨_, rfl⟩
    · split
      · exact Or.inl ⟨_, rfl⟩
      · exact Or.inr ⟨_, _, rfl⟩
  | element container index loc =>
    rcases askHeap_cases loc (·.element container index) m with ⟨v, -, heq⟩ | ⟨problem, heq⟩
    · exact Or.inl ⟨v, heq⟩
    · exact Or.inr ⟨problem, loc, heq⟩
  | member object name loc =>
    rcases askHeap_cases loc (·.member object name) m with ⟨v, -, heq⟩ | ⟨problem, heq⟩
    · exact Or.inl ⟨v, heq⟩
    · exact Or.inr ⟨problem, loc, heq⟩

/-- A check of an annotation changes nothing. -/
theorem checkBinding_cases (name : String) (type : TypeExpr) (v : Value) (frame : FrameId)
    (loc : Location) (m : Machine) :
    checkBinding name type v frame loc m = .done () m ∨
    ∃ problem loc', checkBinding name type v frame loc m = .left (.failed problem loc') m := by
  change Eval.bind (requireKnown type frame) _ m = _ ∨
    ∃ problem loc', Eval.bind (requireKnown type frame) _ m = .left (.failed problem loc') m
  unfold Eval.bind requireKnown
  cases unknownType? m.scopes frame type with
  | some unknown => exact Or.inr ⟨_, _, rfl⟩
  | none =>
    dsimp only
    change Eval.bind (read _) _ m = _ ∨
      ∃ problem loc', Eval.bind (read _) _ m = .left (.failed problem loc') m
    unfold Eval.bind read
    dsimp only
    cases bindingProblem? m.heap name type v with
    | some problem => exact Or.inr ⟨problem, loc, rfl⟩
    | none => exact Or.inl rfl

/-- What a declaration does with its value changes nothing, or the binding of the name in
the frame. -/
theorem bindVariable_writes (constant : Bool) (name : Name) (v : Value) (loc : Location)
    (hframe : (m.scopes.frame? frame).isSome) :
    (∃ m' m'', m.Noted m' ∧
      m'.DiffersAt (.binding frame name.text) (.binding ⟨name.text, v, constant⟩) m'' ∧
      bindVariable constant name v loc frame m = .done .null m'') ∨
    ∃ problem loc', bindVariable constant name v loc frame m =
      .left (.failed problem loc') m := by
  cases hconstant : m.scopes.isLocalConstant frame name.text with
  | true => exact Or.inr ⟨_, _, bindVariable_of_constant hconstant constant v loc⟩
  | false =>
    obtain ⟨m', hnoted, advisories, rfl⟩ := noteRecursion_noted v loc m
    exact Or.inl ⟨_, _, ⟨advisories, rfl⟩, Machine.differsAt_bind (m := { m with advisories })
      hframe { name := name.text, value := v, constant },
      bindVariable_of_variable hconstant hnoted constant⟩

/-- An operator fails, or makes an array at most. -/
theorem binary_cases (op : BinaryOp) (left right : Value) (loc : Location)
    (hwhole : m.Whole) :
    (∃ v m', m.Untouched v m' ∧ Eval.binary op left right loc m = .done v m') ∨
    ∃ problem, Eval.binary op left right loc m = .left (.failed problem loc) m := by
  have hknown := Operator.knows_binary (Machine.whole_iff.mp hwhole).2 op left right
  rcases askHeap_cases loc (fun h => Operator.binary h op left right) m with
    ⟨c, hc, heq⟩ | ⟨problem, heq⟩
  · rw [hc] at hknown
    obtain ⟨m', hadvised, advisories, rfl⟩ := adviseAll_noted c.advisories loc m
    have hbinary : Eval.binary op left right loc m =
        onHeap (·.take c.answer) { m with advisories } := by
      rw [Eval.binary, bind_of_done heq, takeComputed, bind_of_done hadvised]
    refine Or.inl ?_
    rw [hbinary]
    cases hanswer : c.answer with
    | value v => exact ⟨v, _, .noted ⟨advisories, rfl⟩, rfl⟩
    | array items =>
      rw [Heap.knows_ok, Heap.knows_computed, hanswer, Heap.knows_answer_array] at hknown
      exact ⟨_, _, .made rfl ⟨advisories, rfl⟩
        (hwhole.not_mem_mentions_newArray hknown advisories), rfl⟩
  · exact Or.inr ⟨problem, bind_of_left heq⟩

/-- A name is written to where it is bound, or else in the frame. -/
theorem assignName_writes (id : Name) (value : Value)
    (hframe : (m.scopes.frame? frame).isSome) :
    (∃ spot c m', m.Addresses frame (.name id) spot ∧ c.written = value ∧
      m.DiffersAt spot c m' ∧ assignName id value frame m = .done () m') ∨
    ∃ problem loc, assignName id value frame m = .left (.failed problem loc) m := by
  rcases assignName_cases id value frame m with ⟨-, heq⟩ | ⟨-, hfound, heq⟩ | ⟨hunbound, heq⟩
  · exact Or.inr ⟨_, _, heq⟩
  · obtain ⟨found, hresolve⟩ := Option.isSome_iff_exists.mp hfound
    exact Or.inl ⟨_, _, _, .bound hresolve, rfl, Machine.differsAt_update hresolve value, heq⟩
  · exact Or.inl ⟨_, _, _, .unbound hunbound, rfl,
      Machine.differsAt_bind hframe { name := id.text, value, constant := false }, heq⟩

/-- A part that is looked up is written to. -/
theorem storeAsked_eq {ask : Heap → Except Problem Heap.Part} {loc : Location}
    {part : Heap.Part} (hpart : ask m.heap = .ok part) (value : Value) :
    (do let part ← askHeap loc ask; storePart part value : Eval Unit) m =
      .done () { m with heap := m.heap.store part value } := by
  have hasked : askHeap loc ask m = .done part m := by rw [askHeap, hpart]
  rw [bind_of_done hasked]
  rfl

theorem elementPart_writes (frame : FrameId) {container index : Value} (value : Value)
    (loc : Location)
    (hcontainer : m.heap.Knows container) {part : Heap.Part}
    (hpart : m.heap.elementPart container index = .ok part) :
    ∃ spot c, m.Addresses frame (.element container index loc) spot ∧ c.written = value ∧
      m.DiffersAt spot c { m with heap := m.heap.store part value } := by
  unfold Heap.elementPart at hpart
  split at hpart
  · next cell =>
    split at hpart
    · next i =>
      cases hposition : Heap.position i (m.heap.items cell).size with
      | error problem => rw [hposition] at hpart; cases hpart
      | ok k =>
        rw [hposition] at hpart
        cases hpart
        exact ⟨_, _, .element hposition, rfl,
          Machine.differsAt_element (Heap.lt_of_position hposition) value⟩
    · cases hpart
  · next cell =>
    split at hpart
    · next key hkey =>
      cases hpart
      have hcell := Heap.mem_refs_map.mp (Heap.knows_value_iff.mp hcontainer _ rfl)
      exact ⟨_, _, .entry hkey, rfl, Machine.differsAt_entry hcell key { key := index, value }⟩
    · cases hpart
  · cases hpart
  · cases hpart

theorem memberPart_writes (frame : FrameId) {object : Value} (value : Value)
    {name : String} (loc : Location)
    (hobject : m.heap.Knows object) {part : Heap.Part}
    (hpart : m.heap.memberPart object name = .ok part) :
    ∃ spot c, m.Addresses frame (.member object name loc) spot ∧ c.written = value ∧
      m.DiffersAt spot c { m with heap := m.heap.store part value } := by
  unfold Heap.memberPart at hpart
  split at hpart
  · dsimp only at hpart
    split at hpart
    · next hcontains =>
      cases hpart
      have hthere := ExtTreeMap.mem_iff_contains.mpr hcontains
      exact ⟨_, _, .field hthere, rfl, Machine.differsAt_field hthere value⟩
    · cases hpart
  · next cell =>
    cases hpart
    have hcell := Heap.mem_refs_map.mp (Heap.knows_value_iff.mp hobject _ rfl)
    exact ⟨_, _, .namedEntry, rfl,
      Machine.differsAt_entry hcell (Value.textKey name) { key := .str name, value }⟩
  · cases hpart

/-- A write to a place changes nothing, or the spot that the place stands for. -/
theorem writePlace_cases (value : Value) (hframe : (m.scopes.frame? frame).isSome)
    (hplace : m.heap.Knows place) :
    (∃ spot c m', m.Addresses frame place spot ∧ c.written = value ∧
      m.DiffersAt spot c m' ∧ writePlace frame value place m = .done () m') ∨
    ∃ problem loc, writePlace frame value place m = .left (.failed problem loc) m := by
  cases place with
  | name id => exact assignName_writes id value hframe
  | element container index loc =>
    have hcontainer : m.heap.Knows container := (Heap.knows_append.mp hplace).1
    rcases askHeap_cases loc (·.elementPart container index) m with
      ⟨part, hpart, -⟩ | ⟨problem, heq⟩
    · obtain ⟨spot, c, haddresses, hwritten, hdiffers⟩ :=
        elementPart_writes frame value loc hcontainer hpart
      exact Or.inl ⟨spot, c, _, haddresses, hwritten, hdiffers, storeAsked_eq hpart value⟩
    · exact Or.inr ⟨problem, loc, bind_of_left heq⟩
  | member object name loc =>
    rcases askHeap_cases loc (·.memberPart object name) m with
      ⟨part, hpart, -⟩ | ⟨problem, heq⟩
    · obtain ⟨spot, c, haddresses, hwritten, hdiffers⟩ :=
        memberPart_writes frame value loc hplace hpart
      exact Or.inl ⟨spot, c, _, haddresses, hwritten, hdiffers, storeAsked_eq hpart value⟩
    · exact Or.inr ⟨problem, loc, bind_of_left heq⟩

end Eval

/-! ### Parts -/

theorem Expr.placeOf?_append {target : Expr} {values : List Value} {place : Place}
    (hplace : target.placeOf? values = some place) (more : List Value) :
    target.placeOf? (values ++ more) = some place := by
  unfold Expr.placeOf? at hplace
  split at hplace <;> cases hplace <;> rfl

theorem Expr.knows_placeOf? {h : Heap} {target : Expr} {values : List Value}
    (hvalues : h.Knows values) {place : Place}
    (hplace : target.placeOf? values = some place) : h.Knows place := by
  unfold Expr.placeOf? at hplace
  split at hplace <;> cases hplace
  · exact Heap.knows_of_mentions rfl
  · rw [Heap.knows_cons, Heap.knows_cons] at hvalues
    exact Heap.knows_append.mpr ⟨hvalues.1, hvalues.2.1⟩
  · exact (Heap.knows_cons.mp hvalues).1

namespace Evaluator

variable (ev : Evaluator) {frame : FrameId} {m m₁ m₂ : Machine}

/-- A target is evaluated part by part. -/
theorem place?_eq (frame : FrameId) (target : Expr) :
    ev.place? frame target =
      (Eval.collect (fun e => ev.expr e frame) target.targetParts >>= fun values =>
        Pure.pure (target.placeOf? values)) := by
  cases target with
  | index left position loc =>
    simp only [place?, Expr.targetParts, Eval.collect, Eval.bind_assoc, Eval.pure_bind]
    rfl
  | member object property loc =>
    simp only [place?, Expr.targetParts, Eval.collect, Eval.bind_assoc, Eval.pure_bind]
    rfl
  | _ => rfl

/-- What follows a target is come to with its place, if all of its parts give values. -/
theorem place?_elim {α : Type} {target : Expr} {rest : Option Place → Eval α}
    {P : Outcome α → Prop}
    (hdone : ∀ values m₁,
      Eval.InTurn (fun e => ev.expr e frame) target.targetParts m values m₁ →
        P (rest (target.placeOf? values) m₁))
    (hstops : ∀ o, Eval.StopsIn (fun e => ev.expr e frame) target.targetParts m o → P o) :
    P ((ev.place? frame target >>= rest) m) := by
  rw [place?_eq, Eval.bind_assoc]
  rcases Eval.collect_bind_cases (fun e => ev.expr e frame) target.targetParts
    (fun values => rest (target.placeOf? values)) m with ⟨values, m₁, hturn, heq⟩ | hends
  · exact heq ▸ hdone values m₁ hturn
  · exact hstops _ hends

/-- Whatever expressions have given their values in turn, the machine is whole then, knows
the values, and still has the frame. -/
def Steady (frame : FrameId) (m : Machine) : Prop :=
  ∀ parts values m₁, Eval.InTurn (fun e => ev.expr e frame) parts m values m₁ →
    m₁.Whole ∧ m₁.heap.Knows values ∧ (m₁.scopes.frame? frame).isSome

end Evaluator

/-! ### The three kinds of writes -/

namespace Write

variable {w : Write} {ev : Evaluator} {frame : FrameId} {m m₁ m₂ : Machine}
  {values : List Value} {place : Place} {v result : Value}

/-- All parts have given values, and then the write fails. -/
theorem Ends.fails_behind (hturn : Eval.InTurn (fun e => ev.expr e frame) w.parts m values m₁)
    (huntouched : m₁.Untouched v m₂) (problem : Problem) (loc : Location) :
    w.Ends ev frame m (.left (.failed problem loc) m₂) :=
  .fails (List.append_nil w.parts).symm hturn huntouched

/-- The last step of an assignment or a step. -/
theorem Ends.of_writePlace (hsteady : ev.Steady frame m)
    (hturn : Eval.InTurn (fun e => ev.expr e frame) w.parts m values m₁)
    (hready : m₁.Untouched v m₂) {target : Expr} {before after : List Value}
    (hvalues : values = before ++ after) (hplace : target.placeOf? before = some place)
    (haddresses : ∀ spot, m₂.Addresses frame place spot → w.Addresses frame values m₂ spot)
    (hgives : w.Gives values result v) :
    w.Ends ev frame m ((Eval.writePlace frame v place >>= fun _ => Pure.pure result) m₂) := by
  obtain ⟨-, hknows, hframe⟩ := hsteady _ _ _ hturn
  have hknown : m₂.heap.Knows place :=
    (Expr.knows_placeOf? hknows (hvalues ▸ Expr.placeOf?_append hplace after)).mono hready.within
  rcases Eval.writePlace_cases v (hready.scopes_eq.symm ▸ hframe) hknown with
    ⟨spot, c, m₃, hspot, rfl, hdiffers, heq⟩ | ⟨problem, loc, heq⟩
  · rw [Eval.bind_of_done heq]
    exact .writes hturn hready (haddresses spot hspot) hdiffers hgives
  · rw [Eval.bind_of_left heq]
    exact .fails_behind hturn hready problem loc

section

variable {target value : Expr} {op : AssignOp} {loc : Location}

/-- The value of the expression is written to the place. -/
theorem plain_ends (hsteady : ev.Steady frame m)
    (hturn : Eval.InTurn (fun e => ev.expr e frame) target.targetParts m values m₁)
    (hplace : target.placeOf? values = some place) :
    (assign target op value loc).Ends ev frame m
      ((do let v ← ev.expr value frame; Eval.writePlace frame v place; return v) m₁) := by
  rcases Eval.done_or_endsAs (ev.expr value frame) m₁ with ⟨v, m₂, hv⟩ | hends
  · rw [Eval.bind_of_done hv]
    exact .of_writePlace hsteady (hturn.append (.cons hv (.nil m₂))) (.refl m₂ v) rfl hplace
      (fun spot hspot => ⟨place, Expr.placeOf?_append hplace [v], hspot⟩)
      ⟨rfl, fun _ => List.getLast?_concat⟩
  · exact .stops (hturn.stopsIn (hends _ _))

/-- The place is read before the expression is evaluated, and written to after it. -/
theorem compound_ends (hsteady : ev.Steady frame m) {binary : BinaryOp}
    (hop : op.binary? = some binary)
    (hturn : Eval.InTurn (fun e => ev.expr e frame) target.targetParts m values m₁)
    (hplace : target.placeOf? values = some place) :
    (assign target op value loc).Ends ev frame m
      ((do
        let current ← Eval.readPlace frame place
        let right ← ev.expr value frame
        let v ← Eval.binary binary current right loc
        Eval.writePlace frame v place
        return v) m₁) := by
  rcases Eval.readPlace_cases frame place m₁ with ⟨current, hread⟩ | ⟨problem, l, hread⟩
  · rw [Eval.bind_of_done hread]
    rcases Eval.done_or_endsAs (ev.expr value frame) m₁ with ⟨right, m₂, hright⟩ | hends
    · have hall := hturn.append (.cons hright (.nil m₂))
      rw [Eval.bind_of_done hright]
      rcases Eval.binary_cases binary current right loc (hsteady _ _ _ hall).1 with
        ⟨v, m₃, hready, heq⟩ | ⟨problem, heq⟩
      · rw [Eval.bind_of_done heq]
        exact .of_writePlace hsteady hall hready rfl hplace
          (fun spot hspot => ⟨place, Expr.placeOf?_append hplace [right], hspot⟩)
          ⟨rfl, fun hnone => by cases hop.symm.trans hnone⟩
      · rw [Eval.bind_of_left heq]
        exact .fails_behind hall (.refl m₂ .null) problem loc
    · exact .stops (hturn.stopsIn (hends _ _))
  · rw [Eval.bind_of_left hread]
    exact .fails rfl hturn (.refl m₁ .null)

theorem assign_ends (hsteady : ev.Steady frame m) :
    (assign target op value loc).Ends ev frame m
      (ev.assign target op value loc frame m) := by
  refine ev.place?_elim (P := (assign target op value loc).Ends ev frame m) ?_
    fun o hstops => .stops (hstops.append [value])
  intro values m₁ hturn
  cases hplace : target.placeOf? values with
  | none => exact .fails rfl hturn (.refl m₁ .null)
  | some place =>
    dsimp only
    cases hop : op.binary? with
    | none => exact plain_ends hsteady hturn hplace
    | some binary => exact compound_ends hsteady hop hturn hplace

end

/-- A step, with what is made of the integers before and after it. -/
theorem step_ends (hsteady : ev.Steady frame m) (op : StepOp) {target : Expr}
    (f : Int64 × Int64 → Value) (hparts : w.parts = target.targetParts)
    (haddresses : ∀ values place m spot, target.placeOf? values = some place →
      m.Addresses frame place spot → w.Addresses frame values m spot)
    (hgives : ∀ values old, w.Gives values (f (old, (Evaluator.stepped op old).1))
      (.int (Evaluator.stepped op old).1)) :
    w.Ends ev frame m ((ev.step op target frame >>= fun ends => Pure.pure (f ends)) m) := by
  unfold Evaluator.step
  rw [Eval.bind_assoc]
  refine ev.place?_elim (P := w.Ends ev frame m) ?_ ?_
  · intro values m₁ hturn
    have hall : Eval.InTurn (fun e => ev.expr e frame) w.parts m values m₁ := hparts ▸ hturn
    have hnone : w.parts = w.parts ++ [] := (List.append_nil _).symm
    cases hplace : target.placeOf? values with
    | none => exact .fails hnone hall (.refl m₁ .null)
    | some place =>
      dsimp only
      rw [Eval.bind_assoc]
      rcases Eval.readPlace_cases frame place m₁ with ⟨current, hread⟩ | ⟨problem, l, hread⟩
      · rw [Eval.bind_of_done hread]
        split
        · next old =>
          obtain ⟨m₂, hadvised, hnoted⟩ :=
            Eval.adviseAll_noted (Evaluator.stepped op old).2 target.loc m₁
          rw [Eval.bind_assoc, Eval.bind_of_done hadvised, Eval.bind_assoc]
          exact .of_writePlace hsteady hall (.noted hnoted) (List.append_nil _).symm hplace
            (fun spot => haddresses values place m₂ spot hplace) (hgives values old)
        · exact .fails hnone hall (.refl m₁ .null)
      · rw [Eval.bind_of_left hread]
        exact .fails hnone hall (.refl m₁ .null)
  · exact fun o hstops => .stops (hparts ▸ hstops)

theorem bind_ends (hsteady : ev.Steady frame m) (constant : Bool) (name : Name)
    (type : Option TypeExpr) {value : Expr} (loc : Location)
    (hturn : Eval.InTurn (fun e => ev.expr e frame) [value] m [v] m₁) :
    (declare constant name type value loc).Ends ev frame m
      (Eval.bindVariable constant name v loc frame m₁) := by
  rcases Eval.bindVariable_writes constant name v loc (hsteady _ _ _ hturn).2.2 with
    ⟨m₂, m₃, hnoted, hdiffers, heq⟩ | ⟨problem, loc', heq⟩
  · rw [heq]
    exact .writes hturn (.noted hnoted) rfl hdiffers ⟨rfl, rfl⟩
  · rw [heq]
    exact .fails_behind hturn (.refl m₁ .null) problem loc'

theorem declare_ends (hsteady : ev.Steady frame m) (constant : Bool) (name : Name)
    (type : Option TypeExpr) (value : Expr) (loc : Location) :
    (declare constant name type value loc).Ends ev frame m
      (ev.declare constant name type value loc frame m) := by
  unfold Evaluator.declare
  rcases Eval.done_or_endsAs (ev.expr value frame) m with ⟨v, m₁, hv⟩ | hends
  · have hturn : Eval.InTurn (fun e => ev.expr e frame) [value] m [v] m₁ :=
      .cons hv (.nil m₁)
    rw [Eval.bind_of_done hv]
    cases type with
    | none => exact bind_ends hsteady constant name none loc hturn
    | some type =>
      dsimp only
      rcases Eval.checkBinding_cases name.text type v frame loc m₁ with
        heq | ⟨problem, loc', heq⟩
      · rw [Eval.bind_of_done heq]
        exact bind_ends hsteady constant name (some type) loc hturn
      · rw [Eval.bind_of_left heq]
        exact .fails_behind hturn (.refl m₁ .null) problem loc'
  · exact .stops ((Eval.InTurn.nil m).stopsIn (hends _ _))

end Write

/-- What expressions give in turn is known to a whole machine, and the frame they are
evaluated in goes on running. -/
theorem Evaluator.steady_bounded {settings : Settings}
    (hlibrary : settings.library.WithoutContainers) (n : Nat) {m : Machine}
    (hreached : m.Reached) (hwhole : m.Whole) {frame : FrameId}
    (hframe : m.scopes.Running frame) : (bounded settings n).Steady frame m := by
  intro parts values m₁ hturn
  have hev : (bounded settings n).Sound := bounded_sound hlibrary n
  have hsound : ∀ h, ∀ e ∈ parts, Eval.Sound h ((bounded settings n).expr e frame) :=
    fun _ e _ => hev.expr e frame
  have hrunning : m₁.Reached ∧ m₁.scopes.Running frame := by
    refine hturn.keeps (P := fun m => m.Reached ∧ m.scopes.Running frame) ?_ ⟨hreached, hframe⟩
    intro e _ m v m' hm hdone
    have hnested := evaluate_nests settings n (.expr e frame) m m'
      (congrArg Outcome.machine? hdone)
    exact ⟨hnested.reached hm.1, ((hnested.balanced hm.1).running frame).mpr hm.2⟩
  obtain ⟨f, hf, -⟩ := hrunning.2
  exact ⟨(hturn.keepsHeap (hsound m.heap) hwhole.keeps).whole, hturn.knows hsound hwhole,
    Option.isSome_of_eq_some hf⟩

/-- A declaration, an assignment or a step ends in one of three ways: as the first of its
parts ends that gives no value; with a problem, and then the frames and the heap are what
the last part that was evaluated has left; or with a value, and then every part has been
evaluated exactly once, and one spot has been written to, the one that the target stands
for. -/
theorem writes_change_one_spot_or_nothing (settings : Settings)
    (hlibrary : settings.library.WithoutContainers) (n : Nat) {m : Machine}
    (hreached : m.Reached) (hwhole : m.Whole) {frame : FrameId}
    (hframe : m.scopes.Running frame) (w : Write) :
    w.Ends (Evaluator.bounded settings n) frame m
      (evaluate settings (n + 1) (w.task frame) m) := by
  have hsteady := Evaluator.steady_bounded hlibrary n hreached hwhole hframe
  cases w with
  | declare constant name type value loc => exact Write.declare_ends hsteady _ _ _ _ _
  | assign target op value loc => exact Write.assign_ends hsteady
  | step op target loc =>
    exact Write.step_ends (w := .step op target loc) hsteady op (fun ends => .int ends.1) rfl
      (fun _ place _ _ hplace hspot => ⟨place, hplace, hspot⟩) fun _ old => ⟨old, rfl, rfl⟩
  | stepFirst op target loc =>
    have hends : (Write.stepFirst op target loc).Ends (Evaluator.bounded settings n) frame m
        (((Evaluator.bounded settings n).step op target frame >>= fun ends =>
          Pure.pure (Value.int ends.2)) m) :=
      Write.step_ends hsteady op (fun ends => .int ends.2) rfl
        (fun _ place _ _ hplace hspot => ⟨place, hplace, hspot⟩) fun _ old => ⟨rfl, old, rfl⟩
    cases op with
    | increment => exact hends
    | decrement => exact hends

/-- A machine whose root frame has an array of two items as a constant. -/
def pairMachine : Machine :=
  { Machine.start "" with
    scopes := Arena.new.setConstant Arena.root "a" (.array 0)
    heap := { arrays := #[#[.int 1, .int 2]] } }

/-- `a[i] += 9` -/
def addAt (i : Int64) : Write :=
  .assign (.index (.name ⟨"a", default⟩) (.int i default) default) .add (.int 9 default) default

/-- An item that is not there is not written to, and one that is there is the only one
that is. -/
theorem writes_change_one_spot_or_nothing_addAt :
    ((addAt 5).Ends (Evaluator.bounded ⟨1, .empty⟩ 2) Arena.root pairMachine
        (evaluate ⟨1, .empty⟩ 3 ((addAt 5).task Arena.root) pairMachine) ∧
      evaluate ⟨1, .empty⟩ 3 ((addAt 5).task Arena.root) pairMachine =
        .left (.failed (.indexOutOfBounds 5 2) default) pairMachine) ∧
    (addAt 1).Ends (Evaluator.bounded ⟨1, .empty⟩ 2) Arena.root pairMachine
        (evaluate ⟨1, .empty⟩ 3 ((addAt 1).task Arena.root) pairMachine) ∧
      evaluate ⟨1, .empty⟩ 3 ((addAt 1).task Arena.root) pairMachine =
        .done (.int 11) { pairMachine with heap := { arrays := #[#[.int 1, .int 11]] } } := by
  have hreached : pairMachine.Reached := .change (.change (.start "" fun _ _ _ => 0)
    (.bind _ Arena.root ⟨"a", .array 0, true⟩)) (.heap _ { arrays := #[#[.int 1, .int 2]] })
  have hwhole : pairMachine.Whole := by
    unfold Machine.Whole Heap.Knows
    decide +kernel
  have hframe : pairMachine.scopes.Running Arena.root := ⟨_, rfl, rfl⟩
  have hends := writes_change_one_spot_or_nothing ⟨1, .empty⟩
    Library.empty_withoutContainers 2 hreached hwhole hframe
  exact ⟨⟨hends (addAt 5), rfl⟩, hends (addAt 1), rfl⟩

end Script
