import Script.Proofs.Builtin.Splitting
import Script.Proofs.Number.Integers

/-!
# Conversions

Integers, characters, bytes and booleans are converted to a text or to a number and back
without a loss.  A text is converted to an integer if it is the text of one, perhaps with
blanks around it, and to that integer.
-/

namespace Script

namespace Builtin

/-! ### Replies -/

theorem charAt?_toNat (c : Char) : charAt? (Int64.ofNat c.toNat).toInt = some c := by
  have hvalid : c.toNat.isValidChar := c.valid
  have hlt : c.toNat < 0x110000 := by
    rcases hvalid with hlow | ⟨-, hhigh⟩
    · omega
    · exact hhigh
  have hn : (Int64.ofNat c.toNat).toInt = c.toNat := Int64.toInt_ofNat_of_lt (by omega)
  rw [charAt?, hn, Int.toNat_natCast, if_pos ⟨Int.natCast_nonneg _, hvalid⟩, Char.ofNat_toNat]

theorem toChar?_singleton (c : Char) : toChar? (.str (String.singleton c)) = some c := by
  rw [toChar?, String.toList_singleton]

theorem byteAt?_toNat (b : UInt8) : byteAt? (Int64.ofNat b.toNat).toInt = some b := by
  have hlt : b.toNat < 256 := b.toNat_lt
  have hn : (Int64.ofNat b.toNat).toInt = b.toNat := Int64.toInt_ofNat_of_lt (by omega)
  rw [byteAt?, hn, Int.toNat_natCast, if_pos ⟨Int.natCast_nonneg _, by omega⟩,
    UInt8.ofNat_toNat]

section

variable {h : Heap} {v : Value}

/-- What stands in no heap is converted to its own text. -/
theorem replyString_plain (hv : v.kind ∉ Heap.containers) :
    replyString h [v] = reply (.str (v.plainText false)) :=
  congrArg (fun text => reply (.str text)) (h.textOn_plain hv)

theorem replyInt_eq {n : Int64} (hn : toInt? v = some n) :
    replyInt h [v] = reply (.int n) := by
  rw [replyInt, hn]

theorem replyInt_of_none (hn : toInt? v = none) :
    replyInt h [v] = cannotConvert h v "int" := by
  rw [replyInt, hn]

theorem replyChar_eq {c : Char} (hc : toChar? v = some c) :
    replyChar h [v] = reply (.char c) := by
  rw [replyChar, hc]

theorem replyRune_eq {c : Char} (hc : toChar? v = some c) :
    replyRune h [v] = reply (.rune c) := by
  rw [replyRune, hc]

theorem replyByte_eq {b : UInt8} (hb : toByte? v = some b) :
    replyByte h [v] = reply (.byte b) := by
  rw [replyByte, hb]

theorem replyBool_text (b : Bool) :
    replyBool h [.str (if b then "true" else "false")] = reply (.bool b) := by
  have htrue : Text.trim "true" = "true" := by decide +kernel
  have hfalse : Text.trim "false" = "false" := by decide +kernel
  cases b with
  | true => simp only [replyBool, if_true, htrue]
  | false => simp only [replyBool, Bool.false_eq_true, if_false, hfalse]

end

end Builtin

/-! ### Calls -/

namespace Evaluator

/-- The second function gives back what the first one is given. -/
def Undoes (ev : Evaluator) (back there : Builtin) (v : Value) : Prop :=
  ∀ loc m, ∃ w, ev.callBuiltin there [v] loc m = .done w m ∧
    ev.callBuiltin back [w] loc m = .done v m

theorem undoes_of_replies (ev : Evaluator) {back there : Builtin}
    {askBack askThere : Heap → List Value → Builtin.Reply} {v w : Value}
    (hback : back.reply? = some askBack) (hthere : there.reply? = some askThere)
    (hw : ∀ h, askThere h [v] = Builtin.reply w)
    (hv : ∀ h, askBack h [w] = Builtin.reply v) : ev.Undoes back there v := fun loc m =>
  ⟨w, ev.callBuiltin_of_reply loc m hthere (hw m.heap),
    ev.callBuiltin_of_reply loc m hback (hv m.heap)⟩

/-- A text is converted to the integer that it is the text of, and to nothing else. -/
theorem callBuiltin_int (ev : Evaluator) (text : String) (loc : Location) (m : Machine) :
    (∀ n, ev.callBuiltin .int [.str text] loc m = .done (.int n) m ↔
      Numeral.Denotes text n.toInt) ∧
    ((∀ n : Int64, ¬ Numeral.Denotes text n.toInt) →
      ev.callBuiltin .int [.str text] loc m =
        .left (.failed (.conversion (m.heap.repr (.str text)) "int") loc) m) := by
  have hread : ∀ n, Builtin.toInt? (.str text) = some n ↔ Numeral.Denotes text n.toInt :=
    fun n => Numeral.int64?_trimChars_iff
  cases hfound : Builtin.toInt? (.str text) with
  | none =>
    have hfails : ev.callBuiltin .int [.str text] loc m =
        .left (.failed (.conversion (m.heap.repr (.str text)) "int") loc) m :=
      ev.callBuiltin_of_problem loc m rfl (Builtin.replyInt_of_none hfound)
    refine ⟨fun n => ?_, fun _ => hfails⟩
    rw [hfails, ← hread, hfound]
    exact ⟨nofun, nofun⟩
  | some k =>
    have hdone : ev.callBuiltin .int [.str text] loc m = .done (.int k) m :=
      ev.callBuiltin_of_reply loc m rfl (Builtin.replyInt_eq hfound)
    refine ⟨fun n => ?_, fun hnone => absurd ((hread k).mp hfound) (hnone k)⟩
    rw [hdone, ← hread, hfound, Option.some.injEq, Outcome.done.injEq, Value.int.injEq,
      and_iff_left rfl]

end Evaluator

/-- Conversions are inverse to each other.  Every integer is read back from its text, also
with blanks around it, and so is every boolean.  Every character is given back by its
number and by its text, and every byte by its number.  A text is converted to an integer
exactly if it is, apart from blanks around it, a sign that may be missing and the digits
of that integer, and fails otherwise. -/
theorem conversions_invert (ev : Evaluator) :
    (∀ n, ev.Undoes .int .string (.int n)) ∧
    (∀ (n : Int64) (before after : String) loc m, before.toList.all Text.isBlank = true →
      after.toList.all Text.isBlank = true → ∃ text,
        ev.callBuiltin .string [.int n] loc m = .done (.str text) m ∧
        ev.callBuiltin .int [.str (before ++ text ++ after)] loc m = .done (.int n) m) ∧
    (∀ c, ev.Undoes .char .int (.char c)) ∧
    (∀ c, ev.Undoes .rune .int (.rune c)) ∧
    (∀ c, ev.Undoes .char .string (.char c)) ∧
    (∀ b, ev.Undoes .byte .int (.byte b)) ∧
    (∀ b, ev.Undoes .bool .string (.bool b)) ∧
    ∀ (text : String) loc m,
      (∀ n, ev.callBuiltin .int [.str text] loc m = .done (.int n) m ↔
        Numeral.Denotes text n.toInt) ∧
      ((∀ n : Int64, ¬ Numeral.Denotes text n.toInt) →
        ev.callBuiltin .int [.str text] loc m =
          .left (.failed (.conversion (m.heap.repr (.str text)) "int") loc) m) := by
  have hinteger : ∀ (n : Int64) (before after : String) loc m,
      before.toList.all Text.isBlank = true → after.toList.all Text.isBlank = true →
      ev.callBuiltin .string [.int n] loc m = .done (.str (toString n)) m ∧
        ev.callBuiltin .int [.str (before ++ toString n ++ after)] loc m =
          .done (.int n) m := by
    intro n before after loc m hbefore hafter
    constructor
    · exact ev.callBuiltin_of_reply loc m rfl
        (Builtin.replyString_plain (of_decide_eq_true rfl))
    · exact ((ev.callBuiltin_int _ loc m).1 n).mpr
        (Numeral.denotes_toString n hbefore hafter)
  refine ⟨fun n loc m => ?_, fun n before after loc m hbefore hafter => ?_, fun c => ?_,
    fun c => ?_, fun c => ?_, fun b => ?_, fun b => ?_, ev.callBuiltin_int⟩
  · obtain ⟨hstring, hint⟩ := hinteger n "" "" loc m rfl rfl
    rw [String.empty_append, String.append_empty] at hint
    exact ⟨_, hstring, hint⟩
  · exact ⟨_, hinteger n before after loc m hbefore hafter⟩
  · exact ev.undoes_of_replies rfl rfl (fun _ => Builtin.replyInt_eq rfl)
      (fun _ => Builtin.replyChar_eq (Builtin.charAt?_toNat c))
  · exact ev.undoes_of_replies rfl rfl (fun _ => Builtin.replyInt_eq rfl)
      (fun _ => Builtin.replyRune_eq (Builtin.charAt?_toNat c))
  · exact ev.undoes_of_replies rfl rfl
      (fun _ => Builtin.replyString_plain (of_decide_eq_true rfl))
      (fun _ => Builtin.replyChar_eq (Builtin.toChar?_singleton c))
  · exact ev.undoes_of_replies rfl rfl (fun _ => Builtin.replyInt_eq rfl)
      (fun _ => Builtin.replyByte_eq (Builtin.byteAt?_toNat b))
  · exact ev.undoes_of_replies rfl rfl
      (fun _ => Builtin.replyString_plain (of_decide_eq_true rfl))
      (fun _ => Builtin.replyBool_text b)

/-- The smallest integer, between a blank of a fixed width and one with a line break. -/
theorem conversions_invert_smallest :
    "\u00a0".toList.all Text.isBlank = true ∧ "\u3000\n".toList.all Text.isBlank = true ∧
      ∃ text, idleEvaluator.callBuiltin .string [.int Int64.minValue] default {} =
          .done (.str text) {} ∧
        idleEvaluator.callBuiltin .int [.str ("\u00a0" ++ text ++ "\u3000\n")] default {} =
          .done (.int Int64.minValue) {} := by
  obtain ⟨-, hblanks, -⟩ := conversions_invert idleEvaluator
  have hbefore : "\u00a0".toList.all Text.isBlank = true := by decide +kernel
  have hafter : "\u3000\n".toList.all Text.isBlank = true := by decide +kernel
  exact ⟨hbefore, hafter, hblanks _ _ _ default {} hbefore hafter⟩

end Script
