import Script.Builtin.Argument
import Script.Number.Binary64
import Script.Number.Numeral
import Script.Text.Blank
import Script.Value.Text

/-!
# Built-in conversions
-/

namespace Script.Builtin

def cannotConvert {α : Type} (h : Heap) (v : Value) (target : String) :
    Except Problem α :=
  .error (.conversion (h.repr v) target)

/-- The integer that a value stands for, if it stands for one. -/
def toInt? : Value → Option Int64
  | .int n => some n
  | .float x => if Binary64.isFinite x then some (Binary64.truncate x) else none
  | .bool b => some (if b then 1 else 0)
  | .char c | .rune c => some (Int64.ofNat c.toNat)
  | .byte b => some (Int64.ofNat b.toNat)
  | .variant v => some v.value
  | .str text => Numeral.int64? (Text.trimChars text.toList)
  | _ => none

def replyInt (h : Heap) : List Value → Reply
  | [v] =>
    match toInt? v with
    | some n => reply (.int n)
    | none => cannotConvert h v "int"
  | args => wrongCount .int (.exactly 1) args

def toFloat? : Value → Option Float
  | .float x => some x
  | .int n => some n.toFloat
  | .str text => Numeral.float? (Text.trimChars text.toList)
  | _ => none

def replyFloat (h : Heap) : List Value → Reply
  | [v] =>
    match toFloat? v with
    | some x => reply (.float x)
    | none => cannotConvert h v "float"
  | args => wrongCount .float (.exactly 1) args

def replyString (h : Heap) : List Value → Reply
  | [v] => reply (.str (h.display v))
  | args => wrongCount .string (.exactly 1) args

def replyBool (h : Heap) : List Value → Reply
  | [.str text] =>
    match Text.trim text with
    | "true" => reply (.bool true)
    | "false" => reply (.bool false)
    | _ => cannotConvert h (.str text) "bool"
  | [v] => reply (.bool (h.truthy v))
  | args => wrongCount .bool (.exactly 1) args

/-- The character with a number, if there is one. -/
def charAt? (n : Int) : Option Char :=
  if 0 ≤ n ∧ n.toNat.isValidChar then some (Char.ofNat n.toNat) else none

/-- The character that a value stands for: itself, its number, or a text of one
character. -/
def toChar? : Value → Option Char
  | .char c | .rune c => some c
  | .byte b => some (Char.ofNat b.toNat)
  | .int n => charAt? n.toInt
  | .str text =>
    match text.toList with
    | [c] => some c
    | _ => none
  | _ => none

def replyChar (h : Heap) : List Value → Reply
  | [v] =>
    match toChar? v with
    | some c => reply (.char c)
    | none => .error (.characterConversion (h.repr v))
  | args => wrongCount .char (.exactly 1) args

def replyRune (h : Heap) : List Value → Reply
  | [v] =>
    match toChar? v with
    | some c => reply (.rune c)
    | none => .error (.characterConversion (h.repr v))
  | args => wrongCount .rune (.exactly 1) args

/-- The byte with a number, if there is one. -/
def byteAt? (n : Int) : Option UInt8 :=
  if 0 ≤ n ∧ n < 256 then some (UInt8.ofNat n.toNat) else none

def toByte? : Value → Option UInt8
  | .byte b => some b
  | .int n => byteAt? n.toInt
  | .char c | .rune c => byteAt? c.toNat
  | _ => none

def replyByte (h : Heap) : List Value → Reply
  | [v] =>
    match toByte? v with
    | some b => reply (.byte b)
    | none => cannotConvert h v "byte"
  | args => wrongCount .byte (.exactly 1) args

def replyType (h : Heap) : List Value → Reply
  | [v] => reply (.str (h.typeName v))
  | args => wrongCount .type (.exactly 1) args

end Script.Builtin
