import Mathlib.Data.Nat.Digits.Defs
import Script.Proofs.Number.Numerals
import Script.Text.Blank

/-!
# Texts of integers

`Spells text n` says that a text is a sign, which may be missing, and the decimal digits of
an integer.  What is read as an integer of 64 bits is exactly that, and an integer is
written as one of these texts.  Blanks around it do not matter.
-/

namespace Script

namespace Numeral

variable {text : List Char}

/-! ### Digits -/

/-- One or more of the ten digits. -/
def AreDigits (digits : List Char) : Prop := digits ≠ [] ∧ ∀ c ∈ digits, '0' ≤ c ∧ c ≤ '9'

/-- The number that the digits stand for; the last one counts the ones. -/
def decimalValue (digits : List Char) : Nat := Nat.ofDigits 10 (digits.reverse.map digitValue)

theorem valueFrom_zero_eq (digits : List Char) : valueFrom 0 digits = decimalValue digits :=
  calc valueFrom 0 digits
    _ = digits.foldl (fun value c => digitValue c + 10 * value) 0 := by
      simp only [valueFrom, Nat.add_comm]
    _ = decimalValue digits := by
      rw [decimalValue, Nat.ofDigits_eq_foldr, List.foldr_map, List.foldr_reverse]
      rfl

theorem digits?_eq_some_iff {n : Nat} :
    digits? text = some n ↔ AreDigits text ∧ decimalValue text = n := by
  have hdigits : (!text.isEmpty && text.all isDigit) = true ↔ AreDigits text := by
    simp [AreDigits, isDigit]
  unfold digits?
  rw [valueFrom_zero_eq]
  by_cases htext : AreDigits text
  · rw [if_pos (hdigits.mpr htext), Option.some.injEq, and_iff_right htext]
  · rw [if_neg (hdigits.not.mpr htext)]
    exact iff_of_false (Option.some_ne_none n).symm fun h => htext h.1

/-! ### Signs -/

/-- What a number is with its sign. -/
def signed (negative : Bool) (n : Nat) : Int := if negative then -n else n

/-- The text is an integer: a sign, which may be missing, and digits. -/
inductive Spells : List Char → Int → Prop where
  | unsigned {digits : List Char} (h : AreDigits digits) : Spells digits (decimalValue digits)
  | plus {digits : List Char} (h : AreDigits digits) :
      Spells ('+' :: digits) (decimalValue digits)
  | minus {digits : List Char} (h : AreDigits digits) :
      Spells ('-' :: digits) (-decimalValue digits)

theorem splitSign_of_areDigits (h : AreDigits text) : splitSign text = (false, text) := by
  obtain ⟨hne, hall⟩ := h
  obtain ⟨c, rest, rfl⟩ := List.exists_cons_of_ne_nil hne
  obtain ⟨hlow, hhigh⟩ := hall c List.mem_cons_self
  exact splitSign_of_startsDecimal (by simp [startsDecimal, isDigit, hlow, hhigh]) rest

theorem spells_iff {n : Int} :
    Spells text n ↔ AreDigits (splitSign text).2 ∧
      signed (splitSign text).1 (decimalValue (splitSign text).2) = n := by
  constructor
  · intro h
    cases h with
    | unsigned h =>
      rw [splitSign_of_areDigits h]
      exact ⟨h, rfl⟩
    | plus h => exact ⟨h, rfl⟩
    | minus h => exact ⟨h, rfl⟩
  · rintro ⟨h, rfl⟩
    unfold splitSign at h ⊢
    split at h
    · exact .plus h
    · exact .minus h
    · exact .unsigned h

/-! ### Integers of 64 bits -/

/-- A number with its sign is an integer of 64 bits if it is not too large for one. -/
theorem fitted_eq_some_iff {negative : Bool} {n : Nat} {i : Int64} :
    (if negative then if n ≤ twoTo 63 then some (Int64.ofInt (-n)) else none
      else if n < twoTo 63 then some (Int64.ofNat n) else none) = some i ↔
      signed negative n = i.toInt := by
  have hlow := i.le_toInt
  have hhigh := i.toInt_lt
  have hsame : ∀ k : Int, -2 ^ 63 ≤ k → k < 2 ^ 63 → (Int64.ofInt k = i ↔ k = i.toInt) := by
    intro k hk hk'
    rw [← Int64.toInt_inj, Int64.toInt_ofInt_of_le hk hk']
  cases negative with
  | true =>
    change (if n ≤ 2 ^ 63 then _ else _) = _ ↔ -(n : Int) = i.toInt
    by_cases hfits : n ≤ 2 ^ 63
    · rw [if_pos hfits, Option.some.injEq, hsame _ (by omega) (by omega)]
    · rw [if_neg hfits]
      exact iff_of_false (Option.some_ne_none i).symm (by omega)
  | false =>
    change (if n < 2 ^ 63 then _ else _) = _ ↔ (n : Int) = i.toInt
    by_cases hfits : n < 2 ^ 63
    · rw [if_pos hfits, Option.some.injEq, ← Int64.ofInt_eq_ofNat,
        hsame _ (by omega) (by omega)]
    · rw [if_neg hfits]
      exact iff_of_false (Option.some_ne_none i).symm (by omega)

/-- Exactly the texts of an integer are read as it. -/
theorem int64?_eq_some_iff {i : Int64} : int64? text = some i ↔ Spells text i.toInt := by
  unfold int64?
  dsimp only
  simp only [Option.bind_eq_some_iff, digits?_eq_some_iff, fitted_eq_some_iff]
  rw [spells_iff]
  constructor
  · rintro ⟨n, ⟨hdigits, rfl⟩, hvalue⟩
    exact ⟨hdigits, hvalue⟩
  · rintro ⟨hdigits, hvalue⟩
    exact ⟨_, ⟨hdigits, rfl⟩, hvalue⟩

/-- An integer is written as one of its texts. -/
theorem spells_toString (i : Int64) : Spells (toString i).toList i.toInt := by
  have hwritten : ∀ n : Nat, AreDigits (Nat.toDigits 10 n) ∧
      decimalValue (Nat.toDigits 10 n) = n :=
    fun n => digits?_eq_some_iff.mp (digits?_toDigits n)
  change Spells (toString i.toInt).toList i.toInt
  rw [Int.toString_eq_repr, Int.repr_eq_if]
  by_cases hnonneg : 0 ≤ i.toInt
  · obtain ⟨hdigits, hvalue⟩ := hwritten i.toInt.toNat
    have hspells := Spells.unsigned hdigits
    rw [hvalue, Int.toNat_of_nonneg hnonneg] at hspells
    rwa [if_pos hnonneg, Nat.toList_repr]
  · obtain ⟨hdigits, hvalue⟩ := hwritten (-i.toInt).toNat
    have hspells := Spells.minus hdigits
    rw [hvalue, Int.toNat_of_nonneg (by omega), Int.neg_neg] at hspells
    rw [if_neg hnonneg, String.toList_append, Nat.toList_repr]
    exact hspells

theorem int64?_toString (i : Int64) : int64? (toString i).toList = some i :=
  int64?_eq_some_iff.mpr (spells_toString i)

end Numeral

/-! ### Blanks -/

namespace Text

variable {before body after : List Char}

theorem dropWhile_append_of_blanks (hbefore : before.all isBlank = true) (hne : body ≠ [])
    (hbody : ∀ c ∈ body, isBlank c = false) (after : List Char) :
    (before ++ (body ++ after)).dropWhile isBlank = body ++ after := by
  obtain ⟨c, body, rfl⟩ := List.exists_cons_of_ne_nil hne
  rw [List.dropWhile_append_of_pos (List.all_eq_true.mp hbefore)]
  exact List.dropWhile_cons_of_neg (Bool.eq_false_iff.mp (hbody c List.mem_cons_self))

/-- Blanks in front of a text and behind it are cut off. -/
theorem trimChars_append (hbefore : before.all isBlank = true)
    (hafter : after.all isBlank = true) (hne : body ≠ [])
    (hbody : ∀ c ∈ body, isBlank c = false) :
    trimChars (before ++ body ++ after) = body := by
  have hback : (after.reverse ++ (body.reverse ++ [])).dropWhile isBlank = body.reverse ++ [] := by
    apply dropWhile_append_of_blanks
    · rwa [List.all_reverse]
    · exact List.reverse_eq_nil_iff.not.mpr hne
    · exact fun c hc => hbody c (List.mem_reverse.mp hc)
  calc trimChars (before ++ body ++ after)
    _ = ((body ++ after).reverse.dropWhile isBlank).reverse := by
      rw [trimChars, List.append_assoc, dropWhile_append_of_blanks hbefore hne hbody]
    _ = (body.reverse ++ []).reverse := by
      rw [List.reverse_append, ← hback, List.append_nil]
    _ = body := by rw [List.append_nil, List.reverse_reverse]

/-- A text is what is left of it, with blanks in front and behind. -/
theorem exists_trimChars (text : List Char) : ∃ before after,
    before.all isBlank = true ∧ after.all isBlank = true ∧
      text = before ++ trimChars text ++ after := by
  let rest := text.dropWhile isBlank
  let last := (rest.reverse.takeWhile isBlank).reverse
  have hrest : rest = trimChars text ++ last :=
    calc rest
      _ = (rest.reverse.takeWhile isBlank ++ rest.reverse.dropWhile isBlank).reverse := by
        rw [List.takeWhile_append_dropWhile, List.reverse_reverse]
      _ = trimChars text ++ last := List.reverse_append
  refine ⟨text.takeWhile isBlank, last, List.all_takeWhile, ?_, ?_⟩
  · rw [List.all_reverse]
    exact List.all_takeWhile
  · rw [List.append_assoc, ← hrest]
    exact List.takeWhile_append_dropWhile.symm

end Text

namespace Numeral

variable {text : List Char}

theorem AreDigits.not_blank (h : AreDigits text) : ∀ c ∈ text, Text.isBlank c = false := by
  intro c hc
  have hlow : 48 ≤ c.toNat := UInt32.le_iff_toNat_le.mp (h.2 c hc).1
  have hhigh : c.toNat ≤ 57 := UInt32.le_iff_toNat_le.mp (h.2 c hc).2
  rw [Bool.eq_false_iff]
  intro hblank
  unfold Text.isBlank at hblank
  simp only [Bool.or_eq_true, Bool.and_eq_true, decide_eq_true_eq, beq_iff_eq] at hblank
  omega

/-- The text of an integer is not empty, and there are no blanks in it. -/
theorem Spells.solid {n : Int} (h : Spells text n) :
    text ≠ [] ∧ ∀ c ∈ text, Text.isBlank c = false := by
  cases h with
  | unsigned h => exact ⟨h.1, h.not_blank⟩
  | plus h => exact ⟨List.cons_ne_nil _ _, List.forall_mem_cons.mpr ⟨rfl, h.not_blank⟩⟩
  | minus h => exact ⟨List.cons_ne_nil _ _, List.forall_mem_cons.mpr ⟨rfl, h.not_blank⟩⟩

/-- The text of an integer, with blanks around it. -/
def Denotes (text : String) (n : Int) : Prop :=
  ∃ before body after : List Char, text.toList = before ++ body ++ after ∧
    before.all Text.isBlank = true ∧ after.all Text.isBlank = true ∧ Spells body n

/-- Exactly the texts of an integer are read as it, once the blanks are cut off. -/
theorem int64?_trimChars_iff {text : String} {i : Int64} :
    int64? (Text.trimChars text.toList) = some i ↔ Denotes text i.toInt := by
  rw [int64?_eq_some_iff]
  constructor
  · intro h
    obtain ⟨before, after, hbefore, hafter, htext⟩ := Text.exists_trimChars text.toList
    exact ⟨before, _, after, htext, hbefore, hafter, h⟩
  · rintro ⟨before, body, after, htext, hbefore, hafter, h⟩
    rwa [htext, Text.trimChars_append hbefore hafter h.solid.1 h.solid.2]

/-- The text of an integer denotes it, also with blanks around it. -/
theorem denotes_toString (i : Int64) {before after : String}
    (hbefore : before.toList.all Text.isBlank = true)
    (hafter : after.toList.all Text.isBlank = true) :
    Denotes (before ++ toString i ++ after) i.toInt := by
  refine ⟨before.toList, (toString i).toList, after.toList, ?_, hbefore, hafter,
    spells_toString i⟩
  rw [String.toList_append, String.toList_append]

end Numeral

end Script
