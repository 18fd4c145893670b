import Mathlib.Algebra.Group.Nat.Defs
import Script.Proofs.Builtin.Splitting

/-!
# Searching

An array is searched for an equal item, and a text for a part of it or for a character.
`contains` tells whether there is one, and `index` where the first one is.  The two of
them agree with each other, and with what an index or a slice gives at that position.
-/

namespace Script

/-! ### First positions -/

/-- The first position that `p` is true of, or none if there is none. -/
def IsFirst (p : Nat → Prop) : Option Nat → Prop
  | some i => p i ∧ ∀ j < i, ¬ p j
  | none => ∀ i, ¬ p i

namespace IsFirst

variable {p : Nat → Prop} {place : Option Nat}

theorem zero (h : p 0) : IsFirst p (some 0) := ⟨h, fun j hj => absurd hj (Nat.not_lt_zero j)⟩

/-- Where nothing is at the start, the search goes on behind it. -/
theorem succ (hzero : ¬ p 0) (h : IsFirst (fun i => p (i + 1)) place) :
    IsFirst p (place.map (· + 1)) := by
  cases place with
  | none =>
    intro i
    cases i with
    | zero => exact hzero
    | succ i => exact h i
  | some i =>
    refine ⟨h.1, fun j hj => ?_⟩
    cases j with
    | zero => exact hzero
    | succ j => exact h.2 j (Nat.lt_of_succ_lt_succ hj)

theorem findIdx? {α : Type} (q : α → Bool) (xs : List α) :
    IsFirst (fun i => ∃ x, xs[i]? = some x ∧ q x = true) (xs.findIdx? q) := by
  induction xs with
  | nil => simp [IsFirst]
  | cons x xs ih =>
    rw [List.findIdx?_cons]
    by_cases hx : q x = true
    · rw [if_pos hx]
      exact zero ⟨x, rfl, hx⟩
    · rw [if_neg hx]
      refine succ ?_ ih
      rintro ⟨y, hy, hq⟩
      obtain rfl := Option.some.inj hy
      exact hx hq

theorem position? (part text : List Char) :
    IsFirst (Text.OccursAt part text) (Text.position? part text) := by
  induction text with
  | nil =>
    rw [Text.position?]
    cases part with
    | nil => exact zero List.nil_prefix
    | cons c part => simp [IsFirst, Text.OccursAt]
  | cons c text ih =>
    rw [Text.position?]
    by_cases hat : part <+: c :: text
    · rw [if_pos (Text.isSome_after?_iff.mpr hat)]
      exact zero hat
    · rw [if_neg (Text.isSome_after?_iff.not.mpr hat)]
      exact succ hat ih

end IsFirst

/-- Behind its end a text has nothing but the empty text, which was at its start. -/
theorem Text.position?_le {part text : List Char} {i : Nat}
    (h : position? part text = some i) : i ≤ text.length := by
  obtain ⟨hoccurs, hfirst⟩ := h ▸ IsFirst.position? part text
  by_contra hbehind
  rw [OccursAt, List.drop_eq_nil_of_le (by omega), List.prefix_nil] at hoccurs
  exact hfirst 0 (by omega) (hoccurs ▸ List.nil_prefix)

/-- A text is in another if it has a first position there. -/
theorem Text.occursIn_eq_isSome (part text : List Char) :
    occursIn part text = (position? part text).isSome := by
  induction text with
  | nil => cases part <;> rfl
  | cons c text ih =>
    rw [occursIn, position?, ih]
    by_cases hat : (after? part (c :: text)).isSome <;> simp [hat]

/-! ### What there is at a position -/

/-- The integer is the first index that `holds` is true of, or -1 if there is none. -/
def FirstIndex (holds : Int64 → Prop) (i : Int64) : Prop :=
  0 ≤ i ∧ holds i ∧ (∀ j, 0 ≤ j → j < i → ¬ holds j) ∨ i = -1 ∧ ∀ j, 0 ≤ j → ¬ holds j

namespace Heap

variable {h : Heap} {i : Int64}

/-- At the index there is what is searched for: a slice as long as a part of a text is that
part, and otherwise the element is that character or an equal item. -/
def FoundAt (h : Heap) (x y : Value) (i : Int64) : Prop :=
  match x, y with
  | .str _, .str part =>
    h.slice x (some (.int i)) (some (.int (i + Int64.ofNat part.length))) = .ok (.value y)
  | .str _, .char _ => h.element x (.int i) = .ok y
  | x, y => ∃ item, h.element x (.int i) = .ok item ∧ h.equal? item y = some true

/-- How many items or characters a value has. -/
def count (h : Heap) : Value → Nat
  | .array cell => (h.items cell).size
  | .str text => text.length
  | _ => 0

theorem map_position_eq_ok_iff {α : Type} (f : Nat → α) {size : Nat} {x : α} (hi : 0 ≤ i) :
    (position i size).map f = .ok x ↔ i.toInt.toNat < size ∧ f i.toInt.toNat = x := by
  unfold position
  rw [if_neg (Int64.not_lt.mpr hi)]
  dsimp only
  by_cases hsize : size ≤ i.toInt.toNat
  · rw [if_pos hsize]
    exact ⟨nofun, fun hfound => absurd hfound.1 (Nat.not_lt.mpr hsize)⟩
  · rw [if_neg hsize, and_iff_right (Nat.lt_of_not_le hsize), Except.map, Except.ok.injEq]

theorem element_array_iff {cell : Nat} {item : Value} (hi : 0 ≤ i) :
    h.element (.array cell) (.int i) = .ok item ↔
      (h.items cell).toList[i.toInt.toNat]? = some item := by
  change (position i _).map _ = _ ↔ _
  rw [map_position_eq_ok_iff _ hi, Array.getElem?_toList, Array.getD_eq_getD_getElem?]
  constructor
  · rintro ⟨hsize, rfl⟩
    rw [Array.getElem?_eq_getElem hsize]
    rfl
  · intro hitem
    obtain ⟨hsize, -⟩ := Array.getElem?_eq_some_iff.mp hitem
    exact ⟨hsize, by rw [hitem]; rfl⟩

theorem element_str_iff {text : String} {c : Char} (hi : 0 ≤ i) :
    h.element (.str text) (.int i) = .ok (.char c) ↔
      text.toList[i.toInt.toNat]? = some c := by
  change (position i _).map _ = _ ↔ _
  rw [map_position_eq_ok_iff _ hi]
  constructor
  · rintro ⟨hsize, hchar⟩
    rw [List.getElem?_eq_getElem hsize] at hchar ⊢
    cases hchar
    rfl
  · intro hchar
    obtain ⟨hsize, -⟩ := List.getElem?_eq_some_iff.mp hchar
    exact ⟨hsize, by rw [hchar]⟩

/-- Where a part of a text occurs, its end is within the text, unless it is empty. -/
theorem length_le_of_occursAt {part text : List Char} {n : Nat}
    (hoccurs : Text.OccursAt part text n) : part.length ≤ text.length - n := by
  rw [← List.length_drop]
  exact hoccurs.length_le

/-- The sum of an index and the length of a part that occurs there is exact. -/
theorem toInt_add_length {part text : List Char} (hcount : text.length < 2 ^ 63) (hi : 0 ≤ i)
    (hoccurs : Text.OccursAt part text i.toInt.toNat) :
    (i + Int64.ofNat part.length).toInt.toNat = i.toInt.toNat + part.length := by
  have hlength := length_le_of_occursAt hoccurs
  have hpart : (Int64.ofNat part.length).toInt = part.length :=
    Int64.toInt_ofNat_of_lt (by omega)
  have hlow : 0 ≤ i.toInt := Int64.le_iff_toInt_le.mp hi
  have hhigh := i.toInt_lt
  rw [Int64.toInt_add, hpart, Int.bmod_eq_of_le (by omega) (by omega)]
  omega

theorem drop_min_length {α : Type} (n : Nat) (xs : List α) :
    xs.drop (min n xs.length) = xs.drop n := by
  rcases Nat.le_total n xs.length with hle | hle
  · rw [Nat.min_eq_left hle]
  · rw [Nat.min_eq_right hle, List.drop_length, List.drop_eq_nil_of_le hle]

/-- The slice that is as long as a part of the text is that part where it occurs, and
nowhere else. -/
theorem slice_str_iff {text part : String} (hcount : text.length < 2 ^ 63) (hi : 0 ≤ i) :
    h.slice (.str text) (some (.int i)) (some (.int (i + Int64.ofNat part.length))) =
        .ok (.value (.str part)) ↔
      Text.OccursAt part.toList text.toList i.toInt.toNat := by
  let start := min i.toInt.toNat text.toList.length
  let stop := min (i + Int64.ofNat part.length).toInt.toNat text.toList.length
  have hslice : h.slice (.str text) (some (.int i)) (some (.int (i + Int64.ofNat part.length))) =
      .ok (.value (.str (String.ofList
        ((text.toList.drop i.toInt.toNat).take (max stop start - start))))) := by
    rw [← drop_min_length]
    rfl
  rw [hslice, Except.ok.injEq, Answer.value.injEq, Value.str.injEq]
  constructor
  · intro htake
    rw [← htake, String.toList_ofList]
    exact List.take_prefix _ _
  · intro hoccurs
    -- The part ends within the text, so neither end of the slice is moved.
    have hlength := length_le_of_occursAt hoccurs
    have hsum := toInt_add_length (by rwa [String.length_toList]) hi hoccurs
    have hwidth : max stop start - start = part.toList.length := by
      rw [String.length_toList] at hsum hlength ⊢
      change max (min (i + Int64.ofNat part.length).toInt.toNat _) _ - _ = _
      rw [hsum]
      omega
    rw [hwidth, ← List.prefix_iff_eq_take.mp hoccurs, String.ofList_toList]

/-! ### Replies -/

/-- Both functions reply by one place.  It is the first place where there is what is
searched for. -/
structure AnsweredBy (h : Heap) (x y : Value) (place : Option Nat) : Prop where
  contains : Builtin.replyContains h [x, y] = Builtin.reply (.bool place.isSome)
  index : Builtin.replyIndex h [x, y] = Builtin.reply (Builtin.positionValue place)
  first : ∃ p, IsFirst p place ∧ ∀ i, 0 ≤ i → (h.FoundAt x y i ↔ p i.toInt.toNat)
  bound : ∀ i ∈ place, i < 2 ^ 63

theorem answeredBy_item {cell : Nat} (y : Value) (hcount : (h.items cell).size < 2 ^ 63) :
    h.AnsweredBy (.array cell) y ((h.items cell).toList.findIdx? (h.same · y)) where
  contains := by
    rw [List.findIdx?_isSome, Array.any_toList]
    rfl
  index := by
    rw [← List.findIdx?_toArray]
    rfl
  first := by
    refine ⟨_, IsFirst.findIdx? _ _, fun i hi => ?_⟩
    simp only [FoundAt, element_array_iff hi, same, beq_iff_eq]
  bound := by
    intro i hplace
    obtain ⟨hsize, -⟩ := List.findIdx?_eq_some_iff_getElem.mp hplace
    exact Nat.lt_trans hsize hcount

theorem answeredBy_part {text : String} (part : String) (hcount : text.length < 2 ^ 63) :
    h.AnsweredBy (.str text) (.str part) (Text.position? part.toList text.toList) where
  contains := congrArg (fun found => Builtin.reply (.bool found))
    (Text.occursIn_eq_isSome part.toList text.toList)
  index := rfl
  first := ⟨_, IsFirst.position? _ _, fun _ hi => slice_str_iff hcount hi⟩
  bound := by
    intro i hplace
    have hle := Text.position?_le hplace
    rw [String.length_toList] at hle
    exact Nat.lt_of_le_of_lt hle hcount

theorem answeredBy_char {text : String} (c : Char) (hcount : text.length < 2 ^ 63) :
    h.AnsweredBy (.str text) (.char c) (text.toList.findIdx? (· == c)) where
  contains := by
    rw [List.findIdx?_isSome, List.any_beq']
    rfl
  index := rfl
  first := by
    refine ⟨_, IsFirst.findIdx? _ _, fun i hi => ?_⟩
    simp only [FoundAt, element_str_iff hi, beq_iff_eq, exists_eq_right]
  bound := by
    intro i hplace
    obtain ⟨hsize, -⟩ := List.findIdx?_eq_some_iff_getElem.mp hplace
    rw [String.length_toList] at hsize
    exact Nat.lt_trans hsize hcount

theorem AnsweredBy.firstIndex {x y : Value} {place : Option Nat} (hplace : h.AnsweredBy x y place) :
    ∃ i, Builtin.positionValue place = .int i ∧ (place.isSome = true ↔ 0 ≤ i) ∧
      FirstIndex (h.FoundAt x y) i := by
  obtain ⟨p, hfirst, hfound⟩ := hplace.first
  cases place with
  | none =>
    refine ⟨-1, rfl, by decide, Or.inr ⟨rfl, fun j hj => ?_⟩⟩
    exact (hfound j hj).not.mpr (hfirst _)
  | some n =>
    have hn : (Int64.ofNat n).toInt = n := Int64.toInt_ofNat_of_lt (hplace.bound n rfl)
    have hnonneg : 0 ≤ Int64.ofNat n := by
      rw [Int64.le_iff_toInt_le, hn]
      exact Int.natCast_nonneg n
    refine ⟨Int64.ofNat n, rfl, by simp [hnonneg], Or.inl ⟨hnonneg, ?_, fun j hj hbefore => ?_⟩⟩
    · rw [hfound _ hnonneg, hn]
      exact hfirst.1
    · rw [hfound j hj]
      have hj : 0 ≤ j.toInt := Int64.le_iff_toInt_le.mp hj
      rw [Int64.lt_iff_toInt_lt, hn] at hbefore
      exact hfirst.2 _ (by omega)

end Heap

/-! ### Calls -/

/-- Anything can be searched for in an array, but only texts and characters in a text. -/
def Value.Searches (x y : Value) : Prop :=
  x.kind = .array ∨ x.kind = .str ∧ (y.kind = .str ∨ y.kind = .char)

theorem Heap.exists_answeredBy (h : Heap) {x y : Value} (hsearches : x.Searches y)
    (hcount : h.count x < 2 ^ 63) : ∃ place, h.AnsweredBy x y place := by
  cases x with
  | array cell => exact ⟨_, answeredBy_item y hcount⟩
  | str text =>
    cases y with
    | str part => exact ⟨_, answeredBy_part part hcount⟩
    | char c => exact ⟨_, answeredBy_char c hcount⟩
    | _ => rcases hsearches with harray | ⟨-, hneedle | hneedle⟩ <;> contradiction
  | _ => rcases hsearches with harray | ⟨hstr, -⟩ <;> contradiction

/-- A text is not searched for anything but texts and characters. -/
theorem Heap.not_answered (h : Heap) {x y : Value} (hx : x.kind = .array ∨ x.kind = .str)
    (hrefused : ¬ x.Searches y) :
    Builtin.replyContains h [x, y] = Builtin.wrongType h .contains 2 "string" y ∧
      Builtin.replyIndex h [x, y] = Builtin.wrongType h .index 2 "string" y := by
  cases x with
  | array cell => exact absurd (Or.inl rfl) hrefused
  | str text =>
    cases y with
    | str part => exact absurd (Or.inr ⟨rfl, Or.inl rfl⟩) hrefused
    | char c => exact absurd (Or.inr ⟨rfl, Or.inr rfl⟩) hrefused
    | _ => exact ⟨rfl, rfl⟩
  | _ => rcases hx with hx | hx <;> contradiction

/-- `contains` and `index` agree on every array and every text that memory can hold.  What
can be searched for is contained if its index is not negative.  The index is the first one
where an element or a slice of the value gives what is searched for, and -1 if there is
none.  Both refuse to search for anything else. -/
theorem contains_agrees_with_index (ev : Evaluator) (loc : Location) (m : Machine)
    (x y : Value) (hx : x.kind = .array ∨ x.kind = .str) (hcount : m.heap.count x < 2 ^ 63) :
    (x.Searches y → ∃ found i,
      ev.callBuiltin .contains [x, y] loc m = .done (.bool found) m ∧
      ev.callBuiltin .index [x, y] loc m = .done (.int i) m ∧
      (found = true ↔ 0 ≤ i) ∧ FirstIndex (m.heap.FoundAt x y) i) ∧
    (¬ x.Searches y → ∀ f, f = .contains ∨ f = .index →
      ev.callBuiltin f [x, y] loc m =
        .left (.failed (.argumentType f.name 2 "string" (m.heap.typeName y)) loc) m) := by
  constructor
  · intro hsearches
    obtain ⟨place, hplace⟩ := m.heap.exists_answeredBy hsearches hcount
    obtain ⟨i, hi, hsome, hfirst⟩ := hplace.firstIndex
    refine ⟨place.isSome, i, ?_, ?_, hsome, hfirst⟩
    · exact ev.callBuiltin_of_reply loc m rfl hplace.contains
    · exact ev.callBuiltin_of_reply loc m rfl (hi ▸ hplace.index)
  · intro hrefused
    obtain ⟨hcontains, hindex⟩ := m.heap.not_answered hx hrefused
    rintro f (rfl | rfl)
    · exact ev.callBuiltin_of_problem loc m rfl hcontains
    · exact ev.callBuiltin_of_problem loc m rfl hindex

/-- Of two places in a text that overlap, `index` gives the first one. -/
theorem contains_agrees_with_index_banana :
    (Value.str "banana").kind = .str ∧ ({} : Heap).count (.str "banana") < 2 ^ 63 ∧
      idleEvaluator.callBuiltin .index [.str "banana", .str "ana"] default {} =
        .done (.int 1) {} ∧
      FirstIndex (({} : Heap).FoundAt (.str "banana") (.str "ana")) 1 := by
  have hcount : ({} : Heap).count (.str "banana") < 2 ^ 63 := by decide +kernel
  obtain ⟨hsearch, -⟩ := contains_agrees_with_index idleEvaluator default {} (.str "banana")
    (.str "ana") (Or.inr rfl) hcount
  obtain ⟨found, i, -, hcall, -, hfirst⟩ := hsearch (Or.inr ⟨rfl, Or.inl rfl⟩)
  have hplace : Text.position? "ana".toList "banana".toList = some 1 := by decide +kernel
  have hindex : idleEvaluator.callBuiltin .index [.str "banana", .str "ana"] default {} =
      .done (.int 1) {} :=
    idleEvaluator.callBuiltin_of_reply default {} rfl
      (congrArg (fun place => Builtin.reply (Builtin.positionValue place)) hplace)
  obtain rfl : i = 1 := by
    rw [hcall] at hindex
    cases hindex
    rfl
  exact ⟨rfl, hcount, hindex, hfirst⟩

end Script
