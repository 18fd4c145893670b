import Mathlib.Data.List.Basic
import Script.Proofs.Eval.Rules
import Script.Proofs.Eval.Sequences

/-!
# Annotations

An annotation may name base types, and the structs and enumerations in scope; one that names
anything else is refused before a value is checked against it.  A value that the annotation
does not admit is reported as a whole, or, if it is an array, by the first of its elements
that is not of the type of the elements.
-/

namespace Script

open Scope (Arena FrameId)

/-! ### The names in an annotation -/

/-- The names in an annotation with their places, in the order in which they are looked up. -/
def TypeExpr.names : TypeExpr → List (String × Location)
  | .named name loc => [(name, loc)]
  | .array element _ => element.names
  | .map key value _ => value.names ++ key.names

/-- A name stands for a type: it is that of a base type, or bound to a struct or an
enumeration. -/
def IsType (scopes : Arena Value) (frame : FrameId) (name : String) : Prop :=
  name ∈ baseTypes ∨ (∃ d, scopes.get? frame name = some (.struct d)) ∨
    ∃ d, scopes.get? frame name = some (.enum d)

/-- Every name in an annotation stands for a type. -/
def TypeExpr.Known (type : TypeExpr) (scopes : Arena Value) (frame : FrameId) : Prop :=
  ∀ found ∈ type.names, IsType scopes frame found.1

/-- The name at that place is the first in the annotation that does not stand for a type. -/
def TypeExpr.FirstUnknown (type : TypeExpr) (scopes : Arena Value) (frame : FrameId)
    (name : String) (loc : Location) : Prop :=
  ∃ before after, type.names = before ++ (name, loc) :: after ∧
    (∀ found ∈ before, IsType scopes frame found.1) ∧ ¬ IsType scopes frame name

section

variable {scopes : Arena Value} {frame : FrameId}

theorem isDeclaredType_iff {name : String} :
    isDeclaredType scopes frame name = true ↔
      (∃ d, scopes.get? frame name = some (.struct d)) ∨
        ∃ d, scopes.get? frame name = some (.enum d) := by
  unfold isDeclaredType
  split <;> simp_all

theorem isType_iff {name : String} :
    IsType scopes frame name ↔
      (isBaseType name || isDeclaredType scopes frame name) = true := by
  rw [Bool.or_eq_true, isDeclaredType_iff, isBaseType, List.contains_iff_mem, IsType]

/-- The search for an unknown type goes through the names of the annotation. -/
theorem unknownType?_eq_find? (type : TypeExpr) :
    unknownType? scopes frame type = type.names.find? fun found =>
      !(isBaseType found.1 || isDeclaredType scopes frame found.1) := by
  induction type with
  | named name loc =>
    rw [unknownType?, TypeExpr.names, List.find?_singleton]
    cases isBaseType name || isDeclaredType scopes frame name <;> rfl
  | array element loc ih => exact ih
  | map key value loc hkey hvalue =>
    rw [unknownType?, TypeExpr.names, List.find?_append, ← hvalue, ← hkey]
    cases unknownType? scopes frame value <;> rfl

theorem unknownType?_eq_none_iff {type : TypeExpr} :
    unknownType? scopes frame type = none ↔ type.Known scopes frame := by
  rw [unknownType?_eq_find?, List.find?_eq_none]
  simp only [Bool.not_eq_true', Bool.not_eq_false, ← isType_iff]
  rfl

theorem unknownType?_eq_some_iff {type : TypeExpr} {name : String} {loc : Location} :
    unknownType? scopes frame type = some (name, loc) ↔
      type.FirstUnknown scopes frame name loc := by
  rw [unknownType?_eq_find?, List.find?_eq_some_iff_append]
  simp only [Bool.not_eq_true', Bool.not_not, ← Bool.not_eq_true, ← isType_iff]
  constructor
  · rintro ⟨hunknown, before, after, hnames, hbefore⟩
    exact ⟨before, after, hnames, hbefore, hunknown⟩
  · rintro ⟨before, after, hnames, hbefore, hunknown⟩
    exact ⟨hunknown, before, after, hnames, hbefore⟩

end

namespace Eval

variable {type : TypeExpr} {frame : FrameId} {m : Machine}

theorem requireKnown_of_known (h : type.Known m.scopes frame) :
    requireKnown type frame m = .done () m := by
  rw [requireKnown, unknownType?_eq_none_iff.mpr h]

/-- An annotation with an unknown type is refused because of the first. -/
theorem requireKnown_of_not_known (h : ¬ type.Known m.scopes frame) :
    ∃ name loc, type.FirstUnknown m.scopes frame name loc ∧
      requireKnown type frame m = .left (.failed (.unknownType name) loc) m := by
  cases hunknown : unknownType? m.scopes frame type with
  | none => exact (h (unknownType?_eq_none_iff.mp hunknown)).elim
  | some found =>
    refine ⟨found.1, found.2, unknownType?_eq_some_iff.mp hunknown, ?_⟩
    rw [requireKnown, hunknown]

end Eval

/-! ### Elements that are of another type -/

namespace Heap

variable {h : Heap} {type element : TypeExpr} {v : Value} {cell i : Nat} {item : Value}

/-- The item at that position of the array is the first that is not of the type. -/
structure FirstOther (h : Heap) (element : TypeExpr) (cell i : Nat) (item : Value) :
    Prop where
  here : (h.items cell)[i]? = some item
  other : h.hasType element item = false
  before : ∀ j < i, ∀ earlier, (h.items cell)[j]? = some earlier →
    h.hasType element earlier = true

theorem hasType_array_iff {loc : Location} :
    h.hasType (.array element loc) v = true ↔
      ∃ cell, v = .array cell ∧ ∀ item ∈ h.items cell, h.hasType element item = true := by
  cases v with
  | array cell =>
    change (h.items cell).all (h.hasType element) = true ↔ _
    rw [Array.all_eq_true_iff_forall_mem]
    simp
  | _ => simp [hasType]

/-- The elements of an array are gone through up to the first of another type. -/
theorem firstMismatch?_cases (helement : type.element? = some element) (cell : Nat) :
    (∃ i item, h.FirstOther element cell i item ∧
      h.firstMismatch? type (.array cell) = some (i, item)) ∨
    (∀ item ∈ h.items cell, h.hasType element item = true) ∧
      h.firstMismatch? type (.array cell) = none := by
  unfold firstMismatch?
  rw [helement]
  dsimp only
  cases hfound : (h.items cell).toList.findIdx? (fun item => !h.hasType element item) with
  | none =>
    refine Or.inr ⟨fun item hitem => ?_, rfl⟩
    simpa using List.findIdx?_eq_none_iff.mp hfound item (Array.mem_toList_iff.mpr hitem)
  | some i =>
    obtain ⟨hi, hother, hbefore⟩ := List.findIdx?_eq_some_iff_getElem.mp hfound
    refine Or.inl ⟨i, (h.items cell).toList[i], ⟨?_, by simpa using hother, ?_⟩, ?_⟩
    · rw [← Array.getElem?_toList, List.getElem?_eq_getElem hi]
    · intro j hj earlier hearlier
      rw [← Array.getElem?_toList] at hearlier
      obtain ⟨-, rfl⟩ := List.getElem?_eq_some_iff.mp hearlier
      simpa using hbefore j hj
    · dsimp only
      rw [List.getD_eq_getElem?_getD, List.getElem?_eq_getElem hi, Option.getD_some]

/-- Only arrays have elements to go through. -/
theorem firstMismatch?_eq_none
    (h' : ∀ element cell, type.element? = some element → v ≠ .array cell) :
    h.firstMismatch? type v = none := by
  unfold firstMismatch?
  split
  · next cell element helement => exact (h' element cell helement rfl).elim
  · rfl

end Heap

namespace Eval

section

variable {h : Heap} {name : String} {type element : TypeExpr} {v item : Value} {i : Nat}

theorem bindingProblem?_eq_none (htype : h.hasType type v = true) :
    bindingProblem? h name type v = none := by
  rw [bindingProblem?, if_pos htype]

theorem bindingProblem?_of_element (htype : h.hasType type v = false)
    (helement : type.element? = some element)
    (hfound : h.firstMismatch? type v = some (i, item)) :
    bindingProblem? h name type v =
      some (.elementType element.print (h.typeName item) i) := by
  simp only [bindingProblem?, htype, Bool.false_eq_true, if_false, hfound, helement,
    Option.map_some, Option.getD_some]

theorem bindingProblem?_of_whole (htype : h.hasType type v = false)
    (hnone : h.firstMismatch? type v = none) :
    bindingProblem? h name type v = some (.variableType name type.print (h.typeName v)) := by
  simp only [bindingProblem?, htype, Bool.false_eq_true, if_false, hnone]

theorem exists_bindingProblem (name : String) (htype : h.hasType type v = false) :
    ∃ problem, bindingProblem? h name type v = some problem := by
  rw [bindingProblem?, if_neg (Bool.eq_false_iff.mp htype)]
  split <;> exact ⟨_, rfl⟩

/-- An array that an array annotation does not admit has an element to be reported by. -/
theorem bindingProblem?_array {loc : Location} {cell : Nat} (name : String)
    (htype : h.hasType (.array element loc) (.array cell) = false) :
    ∃ i item, h.FirstOther element cell i item ∧
      bindingProblem? h name (.array element loc) (.array cell) =
        some (.elementType element.print (h.typeName item) i) := by
  have helement : (TypeExpr.array element loc).element? = some element := rfl
  rcases Heap.firstMismatch?_cases (h := h) helement cell with
    ⟨i, item, hfirst, hfound⟩ | ⟨hall, -⟩
  · exact ⟨i, item, hfirst, bindingProblem?_of_element htype helement hfound⟩
  · cases htype.symm.trans (Heap.hasType_array_iff.mpr ⟨cell, rfl, hall⟩)

/-- Where the annotation is not one of a map, everything else is reported as a whole. -/
theorem bindingProblem?_whole (name : String) (htype : h.hasType type v = false)
    (hmap : type.isMap = false)
    (hother : ∀ element loc cell, type = .array element loc → v ≠ .array cell) :
    bindingProblem? h name type v = some (.variableType name type.print (h.typeName v)) := by
  refine bindingProblem?_of_whole htype (Heap.firstMismatch?_eq_none ?_)
  intro element cell helement
  cases type with
  | named name loc => cases helement
  | array element loc => exact hother element loc cell rfl
  | map => cases hmap

/-- The annotation of a map has the elements of an array gone through as if they were the
values of a map. -/
theorem bindingProblem?_map {key : TypeExpr} {loc : Location} (name : String)
    (htype : h.hasType (.map key element loc) v = false) :
    (∃ cell i item, v = .array cell ∧ h.FirstOther element cell i item ∧
      bindingProblem? h name (.map key element loc) v =
        some (.elementType element.print (h.typeName item) i)) ∨
    (∀ cell, v = .array cell → ∀ item ∈ h.items cell, h.hasType element item = true) ∧
      bindingProblem? h name (.map key element loc) v =
        some (.variableType name (TypeExpr.map key element loc).print (h.typeName v)) := by
  have helement : (TypeExpr.map key element loc).element? = some element := rfl
  cases v with
  | array cell =>
    rcases Heap.firstMismatch?_cases (h := h) helement cell with
      ⟨i, item, hfirst, hfound⟩ | ⟨hall, hnone⟩
    · exact Or.inl ⟨cell, i, item, rfl, hfirst,
        bindingProblem?_of_element htype helement hfound⟩
    · refine Or.inr ⟨?_, bindingProblem?_of_whole htype hnone⟩
      rintro _ ⟨⟩
      exact hall
  | _ =>
    exact Or.inr ⟨nofun, bindingProblem?_of_whole htype (Heap.firstMismatch?_eq_none nofun)⟩

end

section

variable {name : String} {type : TypeExpr} {v : Value} {frame : FrameId} {m : Machine}

/-- A value is checked once all names in the annotation stand for types. -/
theorem checkBinding_eq (hknown : type.Known m.scopes frame) (loc : Location) :
    checkBinding name type v frame loc m =
      (match bindingProblem? m.heap name type v with
        | some problem => fail problem loc
        | none => Pure.pure () : Eval Unit) m := by
  unfold checkBinding
  rw [bind_of_done (requireKnown_of_known hknown)]
  exact bind_of_done rfl

theorem checkBinding_of_hasType (hknown : type.Known m.scopes frame)
    (htype : m.heap.hasType type v = true) (loc : Location) :
    checkBinding name type v frame loc m = .done () m := by
  rw [checkBinding_eq hknown, bindingProblem?_eq_none htype]
  rfl

theorem checkBinding_of_problem (hknown : type.Known m.scopes frame) {problem : Problem}
    (hproblem : bindingProblem? m.heap name type v = some problem) (loc : Location) :
    checkBinding name type v frame loc m = .left (.failed problem loc) m := by
  rw [checkBinding_eq hknown, hproblem]
  rfl

end

end Eval

/-! ### Declarations -/

section

variable {settings : Settings} {n : Nat} {m m₁ : Machine} {frame : FrameId} {value : Expr}
  {v : Value} {type : TypeExpr}

/-- A declaration with an annotation evaluates its value, checks it and binds it. -/
theorem evaluate_annotated (hvalue : evaluate settings n (.expr value frame) m = .done v m₁)
    (constant : Bool) (name : Name) (type : TypeExpr) (loc : Location) :
    evaluate settings (n + 1) (.stmt (.bind constant name (some type) value loc) frame) m =
      (Eval.checkBinding name.text type v frame loc >>= fun _ =>
        Eval.bindVariable constant name v loc frame) m₁ :=
  Eval.bind_of_done hvalue

theorem annotated_of_hasType
    (hvalue : evaluate settings n (.expr value frame) m = .done v m₁)
    (hknown : type.Known m₁.scopes frame) (htype : m₁.heap.hasType type v = true)
    (constant : Bool) (name : Name) (loc : Location) :
    evaluate settings (n + 1) (.stmt (.bind constant name (some type) value loc) frame) m =
      Eval.bindVariable constant name v loc frame m₁ :=
  (evaluate_annotated hvalue constant name type loc).trans
    (Eval.bind_of_done (Eval.checkBinding_of_hasType hknown htype loc))

theorem annotated_of_problem
    (hvalue : evaluate settings n (.expr value frame) m = .done v m₁)
    (hknown : type.Known m₁.scopes frame) (constant : Bool) {name : Name} (loc : Location)
    {problem : Problem}
    (hproblem : Eval.bindingProblem? m₁.heap name.text type v = some problem) :
    evaluate settings (n + 1) (.stmt (.bind constant name (some type) value loc) frame) m =
      .left (.failed problem loc) m₁ :=
  (evaluate_annotated hvalue constant name type loc).trans
    (Eval.bind_of_left (Eval.checkBinding_of_problem hknown hproblem loc))

/-- A declaration whose annotation admits the value fails only for a name that the frame has
as a constant, and one whose annotation does not admit it always fails. -/
theorem annotated_done_iff (hvalue : evaluate settings n (.expr value frame) m = .done v m₁)
    (hknown : type.Known m₁.scopes frame) (constant : Bool) (name : Name) (loc : Location) :
    (∃ m', evaluate settings (n + 1)
        (.stmt (.bind constant name (some type) value loc) frame) m = .done .null m') ↔
      m₁.heap.hasType type v = true ∧ m₁.scopes.isLocalConstant frame name.text = false := by
  cases htype : m₁.heap.hasType type v with
  | false =>
    obtain ⟨problem, hproblem⟩ := Eval.exists_bindingProblem name.text htype
    rw [annotated_of_problem hvalue hknown constant loc hproblem]
    simp
  | true =>
    rw [annotated_of_hasType hvalue hknown htype]
    rcases Eval.bindVariable_cases constant name v loc frame m₁ with
      ⟨hconstant, heq⟩ | ⟨hvariable, noted, -, heq⟩
    · rw [heq, hconstant]
      simp
    · rw [heq, hvariable]
      simp

end

/-- The annotation of a declaration decides about the value.  If it names types only, the
declaration succeeds for the values that it admits, unless the frame has the name as a
constant, and fails for all others.  An array that an array annotation does not admit is
reported by its first element that is not of the type of the elements, and every other value
as a whole.  An annotation of a map is the exception: it has an array reported by the first
element that is not of the type of the map's values, if there is one. -/
theorem declaration_reports_mismatch (settings : Settings) (n : Nat) {m m₁ : Machine}
    {frame : FrameId} {value : Expr} {v : Value}
    (hvalue : evaluate settings n (.expr value frame) m = .done v m₁) {type : TypeExpr}
    (hknown : type.Known m₁.scopes frame) (constant : Bool) (name : Name) (loc : Location) :
    let h := m₁.heap
    let o := evaluate settings (n + 1)
      (.stmt (.bind constant name (some type) value loc) frame) m
    let byElement (element : TypeExpr) (item : Value) (i : Nat) : Problem :=
      .elementType element.print (h.typeName item) i
    let asWhole : Problem := .variableType name.text type.print (h.typeName v)
    ((∀ element item i, (byElement element item i).code.text = "E0036") ∧
      asWhole.code.text = "E0031") ∧
    ((∃ m', o = .done .null m') ↔
      h.hasType type v = true ∧ m₁.scopes.isLocalConstant frame name.text = false) ∧
    (h.hasType type v = true → m₁.scopes.isLocalConstant frame name.text = true →
      o = .left (.failed (.constantReassignment name.text) name.loc) m₁) ∧
    (h.hasType type v = false →
      (∀ element loc' cell, type = .array element loc' → v = .array cell →
        ∃ i item, h.FirstOther element cell i item ∧
          o = .left (.failed (byElement element item i) loc) m₁) ∧
      (type.isMap = false →
        (∀ element loc' cell, type = .array element loc' → v ≠ .array cell) →
          o = .left (.failed asWhole loc) m₁) ∧
      ∀ key element loc', type = .map key element loc' →
        (∃ cell i item, v = .array cell ∧ h.FirstOther element cell i item ∧
          o = .left (.failed (byElement element item i) loc) m₁) ∨
        (∀ cell, v = .array cell → ∀ item ∈ h.items cell, h.hasType element item = true) ∧
          o = .left (.failed asWhole loc) m₁) := by
  intro h o byElement asWhole
  have hfails : ∀ problem, Eval.bindingProblem? h name.text type v = some problem →
      o = .left (.failed problem loc) m₁ := fun _ =>
    annotated_of_problem hvalue hknown constant loc
  refine ⟨⟨fun _ _ _ => rfl, rfl⟩, annotated_done_iff hvalue hknown constant name loc, ?_,
    fun htype => ⟨?_, ?_, ?_⟩⟩
  · intro htype hconstant
    rcases Eval.bindVariable_cases constant name v loc frame m₁ with ⟨-, heq⟩ | ⟨hvariable, -⟩
    · exact (annotated_of_hasType hvalue hknown htype constant name loc).trans heq
    · cases hconstant.symm.trans hvariable
  · rintro element loc' cell rfl rfl
    obtain ⟨i, item, hfirst, hproblem⟩ := Eval.bindingProblem?_array name.text htype
    exact ⟨i, item, hfirst, hfails _ hproblem⟩
  · intro hmap hother
    exact hfails _ (Eval.bindingProblem?_whole name.text htype hmap hother)
  · rintro key element loc' rfl
    rcases Eval.bindingProblem?_map name.text htype with
      ⟨cell, i, item, hv, hfirst, hproblem⟩ | ⟨hall, hproblem⟩
    · exact Or.inl ⟨cell, i, item, hv, hfirst, hfails _ hproblem⟩
    · exact Or.inr ⟨hall, hfails _ hproblem⟩

/-- `[1, "x"]` -/
def numberAndText : Expr := .array [.int 1 default, .str "x" default] default

/-- `numberAndText` has been evaluated. -/
def numberAndTextMachine : Machine := { heap := { arrays := #[#[.int 1, .str "x"]] } }

/-- `let a: []int = [1, "x"]` is reported by the text, at position 1. -/
theorem declaration_reports_mismatch_numberAndText :
    evaluate ⟨1, .empty⟩ 3 (.stmt (.bind false ⟨"a", default⟩
      (some (.array (.named "int" default) default)) numberAndText default) Arena.root) {} =
        .left (.failed (.elementType "int" "string" 1) default) numberAndTextMachine := by
  have hvalue : evaluate ⟨1, .empty⟩ 2 (.expr numberAndText Arena.root) {} =
      .done (.array 0) numberAndTextMachine := rfl
  have hknown : (TypeExpr.array (.named "int" default) default).Known
      numberAndTextMachine.scopes Arena.root := by
    intro found hfound
    obtain rfl := List.mem_singleton.mp hfound
    exact Or.inl (by decide)
  obtain ⟨-, -, -, hfails⟩ :=
    declaration_reports_mismatch ⟨1, .empty⟩ 2 hvalue hknown false ⟨"a", default⟩ default
  obtain ⟨i, item, hfirst, heq⟩ := (hfails (by decide +kernel)).1 _ _ 0 rfl rfl
  have hhere : #[Value.int 1, .str "x"][i]? = some item := hfirst.here
  match i, hhere with
  | 0, hhere =>
    obtain rfl := Option.some.inj hhere
    cases hfirst.other
  | 1, hhere =>
    obtain rfl := Option.some.inj hhere
    exact heq

/-- `let a: map[string]int = [1, "x"]` is reported by the text too, and not because an array
is no map. -/
theorem map_annotation_reports_element :
    let type : TypeExpr := .map (.named "string" default) (.named "int" default) default
    evaluate ⟨1, .empty⟩ 2 (.expr numberAndText Arena.root) {} =
        .done (.array 0) numberAndTextMachine ∧
      type.Known numberAndTextMachine.scopes Arena.root ∧
      numberAndTextMachine.heap.hasType type (.array 0) = false ∧
      evaluate ⟨1, .empty⟩ 3 (.stmt (.bind false ⟨"a", default⟩ (some type) numberAndText
        default) Arena.root) {} =
          .left (.failed (.elementType "int" "string" 1) default) numberAndTextMachine := by
  refine ⟨rfl, ?_, rfl, rfl⟩
  intro found hfound
  have hnames : found ∈ [("int", default), ("string", default)] := hfound
  rcases List.mem_pair.mp hnames with rfl | rfl <;> exact Or.inl (by decide)

end Script
