import Script.Builtin.Collection
import Script.Builtin.Conversion
import Script.Builtin.Math
import Script.Builtin.Texts

/-!
# What the built-in functions give

Most built-in functions only look at the heap.  The others change an array, call
a function, print or read, and have no reply of their own.
-/

namespace Script.Builtin

def reply? : Builtin → Option (Heap → List Value → Reply)
  | len => some replyLen
  | first => some replyFirst
  | last => some replyLast
  | rest => some replyRest
  | split => some replySplit
  | join => some replyJoin
  | upper => some fun h => mapText h .upper Text.upper
  | lower => some fun h => mapText h .lower Text.lower
  | contains => some replyContains
  | index => some replyIndex
  | range => some replyRange
  | format => some replyFormat
  | int => some replyInt
  | string => some replyString
  | float => some replyFloat
  | bool => some replyBool
  | char => some replyChar
  | byte => some replyByte
  | rune => some replyRune
  | type => some replyType
  | keys => some replyKeys
  | values => some replyValues
  | abs => some replyAbs
  | sqrt => some replySqrt
  | pow => some replyPow
  | min => some replyMin
  | max => some replyMax
  | floor => some fun h => rounded h .floor Binary64.floor
  | ceil => some fun h => rounded h .ceil Binary64.ceil
  | trim => some fun h => mapText h .trim Text.trim
  | replicate => some replyReplicate
  | reverse => some replyReverse
  | startsWith => some fun h => askText h .startsWith Text.startsWith
  | endsWith => some fun h => askText h .endsWith Text.endsWith
  | replace => some replyReplace
  | push | pop | map | filter | reduce | print | input => none

end Script.Builtin
