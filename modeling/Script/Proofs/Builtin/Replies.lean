import Script.Builtin.Reply
import Script.Proofs.Value.Questions

/-!
# Replies that do not depend on code

A built-in function that only looks at the heap gives recoded values the recoded
reply.  In particular none of them ever reports that a call is refused, because a
recoding may put any other report in the place of that one.
-/

namespace Script.Builtin

variable (ρ : Recoding) (h : Heap)

/-! ### Arguments -/

section

variable {α β : Type} [Recodable α] [Recodable β]

/-- Two questions in turn are natural if each of them is. -/
theorem bind_recode {e : Except Problem α} {k l : α → Except Problem β}
    (hkl : ∀ x, l (recode ρ x) = recode ρ (k x)) :
    (recode ρ e >>= l) = recode ρ (e >>= k) := by
  cases e with
  | ok x => exact hkl x
  | error p => rfl

/-- How many arguments there are does not depend on the code in them. -/
theorem wrongCount_recode (f : Builtin) (expected : Arity) (args : List Value) :
    (wrongCount f expected (recode ρ args) : Except Problem α) =
      recode ρ (wrongCount f expected args) := by
  simp only [wrongCount, length_recode]
  rfl

/-- A report names the type of an argument, which a recoding keeps. -/
theorem wrongType_recode (f : Builtin) (position : Nat) (expected : String)
    (v : Value) :
    (wrongType (recode ρ h) f position expected (recode ρ v) :
      Except Problem α) = recode ρ (wrongType h f position expected v) := by
  simp only [wrongType, Heap.typeName_recode]
  rfl

end

variable (f : Builtin) (position : Nat) (v : Value)

theorem stringArg_recode :
    stringArg (recode ρ h) f position (recode ρ v) =
      recode ρ (stringArg h f position v) := by
  cases v with
  | str text => rfl
  | _ => exact wrongType_recode ρ h f position _ _

theorem intArg_recode :
    intArg (recode ρ h) f position (recode ρ v) =
      recode ρ (intArg h f position v) := by
  cases v with
  | int n => rfl
  | _ => exact wrongType_recode ρ h f position _ _

/-- The items of the argument are recoded, and any other argument is reported. -/
theorem arrayArg_recode :
    arrayArg (recode ρ h) f position (recode ρ v) =
      recode ρ (arrayArg h f position v) := by
  cases v with
  | array cell => exact congrArg Except.ok (Heap.items_recode ρ h cell)
  | _ => exact wrongType_recode ρ h f position _ _

theorem functionArg_recode :
    functionArg (recode ρ h) f position (recode ρ v) =
      recode ρ (functionArg h f position v) := by
  simp only [functionArg, Value.isCallable_recode]
  split
  · rfl
  · exact wrongType_recode ρ h f position _ _

instance : Codeless Float where

/-- Integers count as numbers here. -/
theorem numberArg_recode :
    numberArg (recode ρ h) f position (recode ρ v) =
      recode ρ (numberArg h f position v) := by
  cases v with
  | int n => rfl
  | float x => rfl
  | _ => exact wrongType_recode ρ h f position _ _

/-! ### Functions with a fixed number of arguments -/

/-- A question with the recoded reply for recoded values. -/
def Natural (ask : Heap → List Value → Reply) : Prop :=
  ∀ ρ h args, ask (recode ρ h) (recode ρ args) = recode ρ (ask h args)

/-- A function of one argument is natural if it is so where it has one. -/
theorem natural_of_one {ask : Heap → List Value → Reply} {f : Builtin}
    (hnone : ∀ h, ask h [] = wrongCount f (.exactly 1) [])
    (hmore : ∀ h v w vs, ask h (v :: w :: vs) =
      wrongCount f (.exactly 1) (v :: w :: vs))
    (hone : ∀ ρ h v, ask (recode ρ h) [recode ρ v] = recode ρ (ask h [v])) :
    Natural ask := by
  intro ρ h args
  match args with
  | [] => rw [recode_nil, hnone, hnone]; rfl
  | [v] => exact hone ρ h v
  | v :: w :: vs =>
    rw [hmore, recode_cons, recode_cons, hmore]
    exact wrongCount_recode ρ f _ (v :: w :: vs)

/-- A function of two arguments is natural if it is so where it has two. -/
theorem natural_of_two {ask : Heap → List Value → Reply} {f : Builtin}
    (hnone : ∀ h, ask h [] = wrongCount f (.exactly 2) [])
    (hone : ∀ h v, ask h [v] = wrongCount f (.exactly 2) [v])
    (hmore : ∀ h v w x vs, ask h (v :: w :: x :: vs) =
      wrongCount f (.exactly 2) (v :: w :: x :: vs))
    (htwo : ∀ ρ h v w, ask (recode ρ h) [recode ρ v, recode ρ w] =
      recode ρ (ask h [v, w])) :
    Natural ask := by
  intro ρ h args
  match args with
  | [] => rw [recode_nil, hnone, hnone]; rfl
  | [v] =>
    rw [hone, recode_cons, recode_nil, hone]
    exact wrongCount_recode ρ f _ [v]
  | [v, w] => exact htwo ρ h v w
  | v :: w :: x :: vs =>
    rw [hmore, recode_cons, recode_cons, recode_cons, hmore]
    exact wrongCount_recode ρ f _ (v :: w :: x :: vs)

/-! ### Collections -/

/-- What is counted is as many on both sides. -/
theorem natural_len : Natural replyLen := by
  refine natural_of_one (fun _ => rfl)
    (fun _ v _ _ => by cases v <;> rfl) fun ρ h v => ?_
  cases v with
  | array cell =>
    change reply (.int (Int64.ofNat ((recode ρ h).items cell).size)) = _
    rw [Heap.items_recode, size_recode]
    rfl
  | map cell =>
    change reply (.int (Int64.ofNat ((recode ρ h).entries cell).size)) = _
    rw [Heap.entries_recode, size_table_recode]
    rfl
  | str | range => rfl
  | _ => exact wrongType_recode ρ h .len 1 _ _

theorem recode_charOrNull (c : Option Char) :
    recode ρ (charOrNull c) = charOrNull c := by
  cases c <;> rfl

theorem natural_first : Natural replyFirst := by
  refine natural_of_one (fun _ => rfl)
    (fun _ v _ _ => by cases v <;> rfl) fun ρ h v => ?_
  cases v with
  | array cell =>
    change reply (((recode ρ h).items cell).getD 0 .null) = _
    rw [Heap.items_recode]
    exact congrArg reply (getD_recode ρ (h.items cell) 0 .null)
  | str text => exact congrArg reply (recode_charOrNull ρ _).symm
  | _ => exact wrongType_recode ρ h .first 1 _ _

theorem natural_last : Natural replyLast := by
  refine natural_of_one (fun _ => rfl)
    (fun _ v _ _ => by cases v <;> rfl) fun ρ h v => ?_
  cases v with
  | array cell =>
    change reply (((recode ρ h).items cell).back?.getD .null) = _
    rw [Heap.items_recode, back?_recode]
    exact congrArg reply (option_getD_recode ρ (h.items cell).back? .null)
  | str text => exact congrArg reply (recode_charOrNull ρ _).symm
  | _ => exact wrongType_recode ρ h .last 1 _ _

/-- An empty array has no rest, recoded or not. -/
theorem natural_rest : Natural replyRest := by
  refine natural_of_one (fun _ => rfl) (fun _ _ _ _ => rfl) fun ρ h v => ?_
  change (arrayArg (recode ρ h) .rest 1 (recode ρ v) >>= _) = _
  rw [arrayArg_recode]
  refine bind_recode ρ fun items => ?_
  rw [isEmpty_recode, size_recode]
  split
  · rfl
  · exact congrArg (fun items => Except.ok (Heap.Answer.array items))
      Array.map_extract.symm

/-- By the kinds of the container and of what is looked for. -/
theorem natural_contains : Natural replyContains := by
  refine natural_of_two (fun _ => rfl) (fun _ v => by cases v <;> rfl)
    (fun _ v w _ _ => by cases v <;> cases w <;> rfl) fun ρ h v w => ?_
  cases v with
  | str text =>
    cases w with
    | str | char => rfl
    | _ => exact wrongType_recode ρ h .contains 2 _ _
  | array cell =>
    change reply (.bool (((recode ρ h).items cell).any
      ((recode ρ h).same · (recode ρ w)))) = _
    rw [Heap.items_recode, any_recode ρ fun v => Heap.same_recode ρ h v w]
    rfl
  | map cell =>
    change reply (.bool ((recode ρ w).mapKey?.any
      ((recode ρ h).entries cell).contains)) = _
    rw [Heap.entries_recode, Value.mapKey?_recode,
      funext fun key => contains_recode ρ key (h.entries cell)]
    rfl
  | range start stop =>
    cases w with
    | int n => rfl
    | _ => exact wrongType_recode ρ h .contains 1 _ (.range start stop)
  | _ => exact wrongType_recode ρ h .contains 1 _ _

/-- A position is a number. -/
theorem recode_positionValue (i : Option Nat) :
    recode ρ (positionValue i) = positionValue i := by
  cases i <;> rfl

/-- The first item that is equal is at the same position. -/
theorem natural_index : Natural replyIndex := by
  refine natural_of_two (fun _ => rfl) (fun _ v => by cases v <;> rfl)
    (fun _ v w _ _ => by cases v <;> cases w <;> rfl) fun ρ h v w => ?_
  cases v with
  | str text =>
    cases w with
    | str | char => exact congrArg reply (recode_positionValue ρ _).symm
    | _ => exact wrongType_recode ρ h .index 2 _ _
  | array cell =>
    change reply (positionValue (((recode ρ h).items cell).findIdx?
      ((recode ρ h).same · (recode ρ w)))) = _
    have hsame : ((recode ρ h).same · (recode ρ w)) ∘ recode ρ = (h.same · w) :=
      funext fun v => Heap.same_recode ρ h v w
    rw [Heap.items_recode, recode_array, Array.findIdx?_map, hsame]
    exact congrArg reply (recode_positionValue ρ _).symm
  | _ => exact wrongType_recode ρ h .index 1 _ _

/-- A part of each entry of a map, in the order of the keys. -/
theorem sortedParts_recode {part : MapEntry → Value}
    (hpart : ∀ e, part (recode ρ e) = recode ρ (part e)) (cell : Nat) :
    (.ok (.array (((recode ρ h).sortedEntries cell).map part).toArray) : Reply) =
      recode ρ (.ok (.array ((h.sortedEntries cell).map part).toArray) :
        Reply) := by
  rw [Heap.sortedEntries_recode]
  refine congrArg (fun items => Except.ok (Heap.Answer.array items)) ?_
  simp [recode_list, recode_array, hpart]

theorem natural_keys : Natural replyKeys := by
  refine natural_of_one (fun _ => rfl)
    (fun _ v _ _ => by cases v <;> rfl) fun ρ h v => ?_
  cases v with
  | map cell => exact sortedParts_recode ρ h (fun _ => rfl) cell
  | _ => exact wrongType_recode ρ h .keys 1 _ _

theorem natural_values : Natural replyValues := by
  refine natural_of_one (fun _ => rfl)
    (fun _ v _ _ => by cases v <;> rfl) fun ρ h v => ?_
  cases v with
  | map cell => exact sortedParts_recode ρ h (fun _ => rfl) cell
  | _ => exact wrongType_recode ρ h .values 1 _ _

theorem natural_range : Natural replyRange := by
  intro ρ h args
  match args with
  | [] => rfl
  | [stop] =>
    simp only [recode_cons, recode_nil, replyRange, intArg_recode]
    exact bind_recode ρ fun _ => rfl
  | [start, stop] =>
    simp only [recode_cons, recode_nil, replyRange, intArg_recode]
    exact bind_recode ρ fun _ => bind_recode ρ fun _ => rfl
  | start :: stop :: v :: vs =>
    exact wrongCount_recode ρ .range _ (start :: stop :: v :: vs)

/-! ### Conversions -/

/-- A report shows the text of the value. -/
theorem cannotConvert_recode (target : String) :
    (cannotConvert (recode ρ h) (recode ρ v) target : Reply) =
      recode ρ (cannotConvert h v target) := by
  simp only [cannotConvert, Heap.repr_recode]
  rfl

/-- No conversion starts from a function. -/
theorem toInt?_recode : toInt? (recode ρ v) = toInt? v := by cases v <;> rfl

theorem natural_int : Natural replyInt := by
  refine natural_of_one (fun _ => rfl) (fun _ _ _ _ => rfl) fun ρ h v => ?_
  simp only [replyInt, toInt?_recode]
  cases toInt? v with
  | none => exact cannotConvert_recode ρ h v "int"
  | some => rfl

theorem toFloat?_recode : toFloat? (recode ρ v) = toFloat? v := by
  cases v <;> rfl

theorem natural_float : Natural replyFloat := by
  refine natural_of_one (fun _ => rfl) (fun _ _ _ _ => rfl) fun ρ h v => ?_
  simp only [replyFloat, toFloat?_recode]
  cases toFloat? v with
  | none => exact cannotConvert_recode ρ h v "float"
  | some => rfl

theorem toByte?_recode : toByte? (recode ρ v) = toByte? v := by cases v <;> rfl

theorem natural_byte : Natural replyByte := by
  refine natural_of_one (fun _ => rfl) (fun _ _ _ _ => rfl) fun ρ h v => ?_
  simp only [replyByte, toByte?_recode]
  cases toByte? v with
  | none => exact cannotConvert_recode ρ h v "byte"
  | some => rfl

theorem toChar?_recode : toChar? (recode ρ v) = toChar? v := by cases v <;> rfl

theorem characterConversion_recode :
    (.error (.characterConversion ((recode ρ h).repr (recode ρ v))) : Reply) =
      recode ρ (.error (.characterConversion (h.repr v)) : Reply) := by
  rw [Heap.repr_recode]
  rfl

theorem natural_char : Natural replyChar := by
  refine natural_of_one (fun _ => rfl) (fun _ _ _ _ => rfl) fun ρ h v => ?_
  simp only [replyChar, toChar?_recode]
  cases toChar? v with
  | none => exact characterConversion_recode ρ h v
  | some => rfl

theorem natural_rune : Natural replyRune := by
  refine natural_of_one (fun _ => rfl) (fun _ _ _ _ => rfl) fun ρ h v => ?_
  simp only [replyRune, toChar?_recode]
  cases toChar? v with
  | none => exact characterConversion_recode ρ h v
  | some => rfl

/-- The text of a function does not depend on its code. -/
theorem natural_string : Natural replyString := by
  refine natural_of_one (fun _ => rfl) (fun _ _ _ _ => rfl) fun ρ h v => ?_
  exact congrArg (fun text => reply (.str text)) (Heap.display_recode ρ h v)

theorem natural_type : Natural replyType := by
  refine natural_of_one (fun _ => rfl) (fun _ _ _ _ => rfl) fun ρ h v => ?_
  exact congrArg (fun text => reply (.str text)) (Heap.typeName_recode ρ h v)

theorem natural_bool : Natural replyBool := by
  refine natural_of_one (fun _ => rfl)
    (fun _ v _ _ => by cases v <;> rfl) fun ρ h v => ?_
  cases v with
  | str text =>
    change replyBool (recode ρ h) [.str text] = recode ρ (replyBool h [.str text])
    unfold replyBool
    dsimp only
    split
    · rfl
    · rfl
    · exact cannotConvert_recode ρ h (.str text) "bool"
  | _ => exact congrArg (fun b => reply (.bool b)) (Heap.truthy_recode ρ h _)

/-! ### Numbers -/

/-- A function from one number to another. -/
theorem ofNumber_recode {result : Float → Value} {b : Builtin}
    (hresult : ∀ ρ x, recode ρ (result x) = result x) :
    (do reply (result (← numberArg (recode ρ h) b 1 (recode ρ v)))) =
      recode ρ (do reply (result (← numberArg h b 1 v)) : Reply) := by
  rw [numberArg_recode]
  exact bind_recode ρ fun x => congrArg reply (hresult ρ x).symm

theorem natural_abs : Natural replyAbs := by
  refine natural_of_one (fun _ => rfl)
    (fun _ v _ _ => by cases v <;> rfl) fun ρ h v => ?_
  cases v with
  | int n => rfl
  | _ => exact ofNumber_recode ρ h _ fun _ _ => rfl

theorem natural_sqrt : Natural replySqrt :=
  natural_of_one (fun _ => rfl) (fun _ _ _ _ => rfl) fun ρ h v =>
    ofNumber_recode ρ h v fun _ _ => rfl

/-- All ways to round a number. -/
theorem natural_rounded (f : Builtin) (round : Float → Int64) :
    Natural fun h => rounded h f round := by
  refine natural_of_one (fun _ => rfl)
    (fun _ v _ _ => by cases v <;> rfl) fun ρ h v => ?_
  cases v with
  | int n => rfl
  | _ => exact ofNumber_recode ρ h _ fun _ _ => rfl

/-- A function from two numbers to another. -/
theorem ofNumbers_recode {result : Float → Float → Value} {b : Builtin}
    (hresult : ∀ ρ x y, recode ρ (result x y) = result x y) (w : Value) :
    (do
      let x ← numberArg (recode ρ h) b 1 (recode ρ v)
      let y ← numberArg (recode ρ h) b 2 (recode ρ w)
      reply (result x y)) =
    recode ρ (do
      let x ← numberArg h b 1 v
      let y ← numberArg h b 2 w
      reply (result x y) : Reply) := by
  rw [numberArg_recode, numberArg_recode]
  exact bind_recode ρ fun x => bind_recode ρ fun y =>
    congrArg reply (hresult ρ x y).symm

/-- The functions of two numbers have the same shape. -/
theorem natural_min : Natural replyMin := by
  refine natural_of_two (fun _ => rfl) (fun _ v => by cases v <;> rfl)
    (fun _ v w _ _ => by cases v <;> cases w <;> rfl) fun ρ h v w => ?_
  cases v with
  | int a =>
    cases w with
    | int b => rfl
    | _ => exact ofNumbers_recode ρ h (.int a) (fun _ _ _ => rfl) _
  | _ => exact ofNumbers_recode ρ h _ (fun _ _ _ => rfl) w

theorem natural_max : Natural replyMax := by
  refine natural_of_two (fun _ => rfl) (fun _ v => by cases v <;> rfl)
    (fun _ v w _ _ => by cases v <;> cases w <;> rfl) fun ρ h v w => ?_
  cases v with
  | int a =>
    cases w with
    | int b => rfl
    | _ => exact ofNumbers_recode ρ h (.int a) (fun _ _ _ => rfl) _
  | _ => exact ofNumbers_recode ρ h _ (fun _ _ _ => rfl) w

theorem natural_pow : Natural replyPow := by
  refine natural_of_two (fun _ => rfl) (fun _ v => by cases v <;> rfl)
    (fun _ v w _ _ => by cases v <;> cases w <;> rfl) fun ρ h v w => ?_
  cases v with
  | int a =>
    cases w with
    | int b =>
      change replyPow (recode ρ h) [.int a, .int b] =
        recode ρ (replyPow h [.int a, .int b])
      unfold replyPow
      dsimp only
      cases integerPower? a b with
      | some power => rfl
      | none => exact ofNumbers_recode ρ h (.int a) (fun _ _ _ => rfl) (.int b)
    | _ => exact ofNumbers_recode ρ h (.int a) (fun _ _ _ => rfl) _
  | _ => exact ofNumbers_recode ρ h _ (fun _ _ _ => rfl) w

/-! ### Texts -/

/-- The pieces of a text are texts. -/
theorem splitReply_recode (separator : Value) :
    splitReply (recode ρ h) (recode ρ v) (recode ρ separator) =
      recode ρ (splitReply h v separator) := by
  unfold splitReply
  rw [stringArg_recode, stringArg_recode]
  refine bind_recode ρ fun text => bind_recode ρ fun separator => ?_
  refine congrArg (fun items => Except.ok (Heap.Answer.array items)) ?_
  simp only [recode_array, List.map_toArray, List.map_map]
  rfl

theorem natural_split : Natural replySplit := by
  intro ρ h args
  match args with
  | [] => rfl
  | [text] => exact splitReply_recode ρ h text (.str " ")
  | [text, separator] => exact splitReply_recode ρ h text separator
  | v :: w :: x :: vs => exact wrongCount_recode ρ .split _ (v :: w :: x :: vs)

/-- The texts of the items do not depend on the code in them. -/
theorem joinReply_recode (separator : Value) :
    joinReply (recode ρ h) (recode ρ v) (recode ρ separator) =
      recode ρ (joinReply h v separator) := by
  unfold joinReply
  rw [arrayArg_recode, stringArg_recode]
  refine bind_recode ρ fun items => bind_recode ρ fun separator => ?_
  rw [recode_codeless, recode_toList, Heap.map_display_recode]
  rfl

theorem natural_join : Natural replyJoin := by
  intro ρ h args
  match args with
  | [] => rfl
  | [items] => exact joinReply_recode ρ h items (.str "")
  | [items, separator] => exact joinReply_recode ρ h items separator
  | v :: w :: x :: vs => exact wrongCount_recode ρ .join _ (v :: w :: x :: vs)

/-- The functions that give another text. -/
theorem natural_mapText (f : Builtin) (change : String → String) :
    Natural fun h => mapText h f change :=
  natural_of_one (fun _ => rfl) (fun _ _ _ _ => rfl) fun ρ h v => by
    simp only [mapText, stringArg_recode]
    exact bind_recode ρ fun _ => rfl

/-- The functions that ask two texts. -/
theorem natural_askText (f : Builtin) (ask : String → String → Bool) :
    Natural fun h => askText h f ask :=
  natural_of_two (fun _ => rfl) (fun _ _ => rfl) (fun _ _ _ _ _ => rfl)
    fun ρ h v w => by
      simp only [askText, stringArg_recode]
      exact bind_recode ρ fun _ => bind_recode ρ fun _ => rfl

/-- What stands in the places of the format is displayed. -/
theorem natural_format : Natural replyFormat := by
  intro ρ h args
  match args with
  | [] => rfl
  | template :: inserts =>
    simp only [recode_cons, replyFormat, stringArg_recode,
      Heap.map_display_recode]
    exact bind_recode ρ fun _ => rfl

theorem natural_replicate : Natural replyReplicate :=
  natural_of_two (fun _ => rfl) (fun _ _ => rfl) (fun _ _ _ _ _ => rfl)
    fun ρ h v w => by
      simp only [replyReplicate, stringArg_recode, intArg_recode]
      exact bind_recode ρ fun _ => bind_recode ρ fun _ => rfl

/-- A text and an array may be reversed. -/
theorem natural_reverse : Natural replyReverse := by
  refine natural_of_one (fun _ => rfl)
    (fun _ v _ _ => by cases v <;> rfl) fun ρ h v => ?_
  cases v with
  | str text => rfl
  | array cell =>
    change Except.ok (Heap.Answer.array ((recode ρ h).items cell).reverse) = _
    rw [Heap.items_recode]
    exact congrArg (fun items => Except.ok (Heap.Answer.array items))
      Array.map_reverse.symm
  | _ => exact wrongType_recode ρ h .reverse 1 _ _

theorem natural_replace : Natural replyReplace := by
  intro ρ h args
  match args with
  | [] => rfl
  | [v] => exact wrongCount_recode ρ .replace _ [v]
  | [v, w] => exact wrongCount_recode ρ .replace _ [v, w]
  | [text, part, replacement] =>
    simp only [recode_cons, recode_nil, replyReplace, stringArg_recode]
    exact bind_recode ρ fun _ => bind_recode ρ fun _ => bind_recode ρ fun _ => rfl
  | v :: w :: x :: y :: vs =>
    exact wrongCount_recode ρ .replace _ (v :: w :: x :: y :: vs)

/-! ### All of them -/

/-- One case for each built-in function that only asks. -/
theorem reply?_recode {f : Builtin} {ask : Heap → List Value → Reply}
    (hask : f.reply? = some ask) : Natural ask := by
  cases f with
  | push | pop | map | filter | reduce | print | input => cases hask
  | len => cases hask; exact natural_len
  | first => cases hask; exact natural_first
  | last => cases hask; exact natural_last
  | rest => cases hask; exact natural_rest
  | split => cases hask; exact natural_split
  | join => cases hask; exact natural_join
  | upper | lower | trim => cases hask; exact natural_mapText _ _
  | contains => cases hask; exact natural_contains
  | index => cases hask; exact natural_index
  | range => cases hask; exact natural_range
  | format => cases hask; exact natural_format
  | int => cases hask; exact natural_int
  | string => cases hask; exact natural_string
  | float => cases hask; exact natural_float
  | bool => cases hask; exact natural_bool
  | char => cases hask; exact natural_char
  | byte => cases hask; exact natural_byte
  | rune => cases hask; exact natural_rune
  | type => cases hask; exact natural_type
  | keys => cases hask; exact natural_keys
  | values => cases hask; exact natural_values
  | abs => cases hask; exact natural_abs
  | sqrt => cases hask; exact natural_sqrt
  | pow => cases hask; exact natural_pow
  | min => cases hask; exact natural_min
  | max => cases hask; exact natural_max
  | floor | ceil => cases hask; exact natural_rounded _ _
  | replicate => cases hask; exact natural_replicate
  | reverse => cases hask; exact natural_reverse
  | startsWith | endsWith => cases hask; exact natural_askText _ _
  | replace => cases hask; exact natural_replace

end Script.Builtin
