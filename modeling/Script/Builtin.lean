/-!
# Built-in functions

The functions that every program has, and those that the modules `math` and
`strings` bring along.
-/

namespace Script

inductive Builtin where
  | len | push | pop | first | last | rest | split | join | upper | lower
  | contains | index | map | filter | reduce | range | format | int | string
  | float | bool | char | byte | rune | type | keys | values | print | input
  | abs | sqrt | pow | min | max | floor | ceil
  | trim | replicate | reverse | startsWith | endsWith | replace
  deriving DecidableEq, Repr, Inhabited

namespace Builtin

def name : Builtin → String
  | len => "len"
  | push => "push"
  | pop => "pop"
  | first => "first"
  | last => "last"
  | rest => "rest"
  | split => "split"
  | join => "join"
  | upper => "upper"
  | lower => "lower"
  | contains => "contains"
  | index => "index"
  | map => "map"
  | filter => "filter"
  | reduce => "reduce"
  | range => "range"
  | format => "format"
  | int => "int"
  | string => "string"
  | float => "float"
  | bool => "bool"
  | char => "char"
  | byte => "byte"
  | rune => "rune"
  | type => "type"
  | keys => "keys"
  | values => "values"
  | print => "print"
  | input => "input"
  | abs => "abs"
  | sqrt => "sqrt"
  | pow => "pow"
  | min => "min"
  | max => "max"
  | floor => "floor"
  | ceil => "ceil"
  | trim => "trim"
  | replicate => "repeat"
  | reverse => "reverse"
  | startsWith => "starts_with"
  | endsWith => "ends_with"
  | replace => "replace"

/-- The functions that a program has without asking. -/
def globals : List Builtin :=
  [len, push, pop, first, last, rest, split, join, upper, lower, contains,
    index, map, filter, reduce, range, format, int, string, float, bool, char,
    byte, rune, type, keys, values, print, input]

/-- The function that stands for a name that nobody has bound. -/
def global? (name : String) : Option Builtin :=
  globals.find? (·.name == name)

end Builtin

end Script
