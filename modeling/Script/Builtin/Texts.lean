import Script.Builtin.Argument
import Script.Text.Blank
import Script.Text.Case
import Script.Text.Search
import Script.Value.Text

/-!
# Built-in functions on texts
-/

namespace Script.Builtin

/-- The pieces of a text; the empty separator takes it apart into characters. -/
def pieces (separator text : String) : List String :=
  if separator.isEmpty then text.toList.map String.singleton
  else Text.splitOn separator text

def splitReply (h : Heap) (text separator : Value) : Reply := do
  let text ← stringArg h .split 1 text
  let separator ← stringArg h .split 2 separator
  return .array ((pieces separator text).map Value.str).toArray

def replySplit (h : Heap) : List Value → Reply
  | [text] => splitReply h text (.str " ")
  | [text, separator] => splitReply h text separator
  | args => wrongCount .split (.between 1 2) args

def joinReply (h : Heap) (items separator : Value) : Reply := do
  let items ← arrayArg h .join 1 items
  let separator ← stringArg h .join 2 separator
  reply (.str (separator.intercalate (items.toList.map h.display)))

def replyJoin (h : Heap) : List Value → Reply
  | [items] => joinReply h items (.str "")
  | [items, separator] => joinReply h items separator
  | args => wrongCount .join (.between 1 2) args

/-- A function from text to text. -/
def mapText (h : Heap) (f : Builtin) (change : String → String) :
    List Value → Reply
  | [text] => do reply (.str (change (← stringArg h f 1 text)))
  | args => wrongCount f (.exactly 1) args

/-- What stands for a value in a template. -/
def placeholder : String := "\x7b\x7d"

/-- The pieces of a template with values between them.  Where the values end, the
placeholders stay. -/
def fill : List String → List String → String
  | [], _ => ""
  | piece :: pieces, [] => placeholder ++ piece ++ fill pieces []
  | piece :: pieces, insert :: inserts => insert ++ piece ++ fill pieces inserts

/-- A template with its placeholders replaced. -/
def formatted (template : String) (inserts : List String) : String :=
  match Text.splitOn placeholder template with
  | [] => ""
  | head :: pieces => head ++ fill pieces inserts

def replyFormat (h : Heap) : List Value → Reply
  | template :: inserts => do
    let template ← stringArg h .format 1 template
    reply (.str (formatted template (inserts.map h.display)))
  | args => wrongCount .format (.atLeast 1) args

def replyReplicate (h : Heap) : List Value → Reply
  | [text, times] => do
    let text ← stringArg h .replicate 1 text
    let times ← intArg h .replicate 2 times
    let result := if text.isEmpty then ""
      else String.join (List.replicate times.toInt.toNat text)
    reply (.str result)
  | args => wrongCount .replicate (.exactly 2) args

def replyReverse (h : Heap) : List Value → Reply
  | [.str text] => reply (.str (String.ofList text.toList.reverse))
  | [.array cell] => .ok (.array (h.items cell).reverse)
  | [v] => wrongType h .reverse 1 "string or array" v
  | args => wrongCount .reverse (.exactly 1) args

/-- A question about a text and a part of it. -/
def askText (h : Heap) (f : Builtin) (ask : String → String → Bool) :
    List Value → Reply
  | [text, part] => do
    let text ← stringArg h f 1 text
    let part ← stringArg h f 2 part
    reply (.bool (ask part text))
  | args => wrongCount f (.exactly 2) args

def replyReplace (h : Heap) : List Value → Reply
  | [text, part, replacement] => do
    let text ← stringArg h .replace 1 text
    let part ← stringArg h .replace 2 part
    let replacement ← stringArg h .replace 3 replacement
    reply (.str (Text.replace part replacement text))
  | args => wrongCount .replace (.exactly 3) args

end Script.Builtin
