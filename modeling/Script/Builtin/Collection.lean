import Script.Builtin.Argument
import Script.Text.Search
import Script.Value.Access
import Script.Value.Equality
import Script.Value.Text

/-!
# Built-in functions on collections
-/

namespace Script.Builtin

/-- The length of a range may exceed what an integer holds, and wraps around then. -/
def replyLen (h : Heap) : List Value → Reply
  | [.str text] => reply (.int (Int64.ofNat text.length))
  | [.array cell] => reply (.int (Int64.ofNat (h.items cell).size))
  | [.map cell] => reply (.int (Int64.ofNat (h.entries cell).size))
  | [.range start stop] => reply (.int (Int64.ofNat (Range.size start stop)))
  | [v] => wrongType h .len 1 "string, array, map or range" v
  | args => wrongCount .len (.exactly 1) args

/-- A text without characters gives null. -/
def charOrNull : Option Char → Value
  | some c => .char c
  | none => .null

def replyFirst (h : Heap) : List Value → Reply
  | [.array cell] => reply ((h.items cell).getD 0 .null)
  | [.str text] => reply (charOrNull text.toList.head?)
  | [v] => wrongType h .first 1 "array" v
  | args => wrongCount .first (.exactly 1) args

def replyLast (h : Heap) : List Value → Reply
  | [.array cell] => reply ((h.items cell).back?.getD .null)
  | [.str text] => reply (charOrNull text.toList.getLast?)
  | [v] => wrongType h .last 1 "array" v
  | args => wrongCount .last (.exactly 1) args

def replyRest (h : Heap) : List Value → Reply
  | [v] => do
    let items ← arrayArg h .rest 1 v
    if items.isEmpty then reply .null
    else return .array (items.extract 1 items.size)
  | args => wrongCount .rest (.exactly 1) args

/-- What is looked for in a map is a key, and elsewhere an item or a part. -/
def replyContains (h : Heap) : List Value → Reply
  | [.str text, .str part] => reply (.bool (Text.contains part text))
  | [.str text, .char c] => reply (.bool (text.toList.contains c))
  | [.str _, v] => wrongType h .contains 2 "string" v
  | [.array cell, v] => reply (.bool ((h.items cell).any (h.same · v)))
  | [.map cell, v] =>
    reply (.bool (v.mapKey?.any (h.entries cell).contains))
  | [.range start stop, .int n] =>
    reply (.bool (Range.contains start stop n))
  | [v, _] => wrongType h .contains 1 "string, array, map or range" v
  | args => wrongCount .contains (.exactly 2) args

/-- A position, or -1 where there is none. -/
def positionValue : Option Nat → Value
  | some i => .int (Int64.ofNat i)
  | none => .int (-1)

def replyIndex (h : Heap) : List Value → Reply
  | [.array cell, v] =>
    reply (positionValue ((h.items cell).findIdx? (h.same · v)))
  | [.str text, .str part] =>
    reply (positionValue (Text.position? part.toList text.toList))
  | [.str text, .char c] =>
    reply (positionValue (text.toList.findIdx? (· == c)))
  | [.str _, v] => wrongType h .index 2 "string" v
  | [v, _] => wrongType h .index 1 "array or string" v
  | args => wrongCount .index (.exactly 2) args

/-- The keys in the order in which a loop gives them. -/
def replyKeys (h : Heap) : List Value → Reply
  | [.map cell] =>
    .ok (.array ((h.sortedEntries cell).map (·.key)).toArray)
  | [v] => wrongType h .keys 1 "map" v
  | args => wrongCount .keys (.exactly 1) args

def replyValues (h : Heap) : List Value → Reply
  | [.map cell] =>
    .ok (.array ((h.sortedEntries cell).map (·.value)).toArray)
  | [v] => wrongType h .values 1 "map" v
  | args => wrongCount .values (.exactly 1) args

def replyRange (h : Heap) : List Value → Reply
  | [stop] => do
    let stop ← intArg h .range 1 stop
    reply (.range 0 stop)
  | [start, stop] => do
    let start ← intArg h .range 1 start
    let stop ← intArg h .range 2 stop
    reply (.range start stop)
  | args => wrongCount .range (.between 1 2) args

end Script.Builtin
