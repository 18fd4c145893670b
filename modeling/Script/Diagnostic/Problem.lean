import Script.Diagnostic
import Script.Diagnostic.Hint

/-!
# Problems

Everything that can be reported, as data.  A `Problem` says what went wrong and
with which names, types and values; `Problem.wording` is the one place that
puts it into words, and the words never depend on where it happened.
-/

namespace Script

inductive Problem where
  | typeMismatch (left op right : String)
  | undefinedVariable (name : String)
  | unknownOperator (op type : String)
  | unexpectedToken (expected found : String)
  | notAFunction (type : String)
  | indexOutOfBounds (index : Int64) (length : Nat)
  | divisionByZero
  | propertyNotFound (property type : String)
  | structNotFound (name : String)
  | invalidArgument (function expected got : String)
  | slice (detail : String)
  | spread (type : String)
  | mapKey (type : String)
  | argumentType (function : String) (position : Nat) (expected got : String)
  | notIterable (type : String)
  | range (detail : String)
  | conversion (value target : String)
  | assignment (target : String)
  | operator (op detail : String)
  | memberAccess (type property : String)
  | detachedMethod (method struct : String)
  | moduleNotFound (name : String)
  | annotationMismatch (expected got : String)
  | variableType (name expected got : String)
  | parameterType (function parameter expected got : String)
  | returnType (function expected got : String)
  | unknownType (name : String)
  | annotationRequired (name : String)
  | elementType (expected got : String) (position : Nat)
  | voidReturn (function got : String)
  | missingReturn (function expected : String)
  | recursionDepth (limit : Nat) (function : String)
  | offByOne (detail : String)
  | emptyCollection (op : String)
  | binarySearch (detail : String)
  | graphCycle (node : String)
  | sortedArrayRequired (function : String)
  | negativeIndex (index : Int64)
  | constantReassignment (name : String)
  | unknownVariant (enum variant : String) (known : List String)
  | characterConversion (value : String)
  | makeDirective (detail : String)
  | malformed (message : String)
  | noExpression (found : String)
  | illegalCharacter (text : String)
  | unterminatedString
  | invalidInteger (literal : String)
  | invalidFloat (literal : String)
  | infiniteLoop
  | nestedLoops (depth : Nat)
  | integerOverflow (left : Int64) (op : String) (right : Int64)
  | nullComparison (op : String)
  | negativeModulo
  | treeRecursion (function : String) (calls : Nat)
  deriving DecidableEq, Repr, Inhabited

/-- The words of a report. -/
structure Wording where
  code : Code
  message : String
  label : String
  notes : List String := []
  help : Option String := none
  deriving DecidableEq, Repr

namespace Problem

/-- A piece of program text inside a message. -/
def tick (text : String) : String := "`" ++ text ++ "`"

/-! ### Help that depends on the operands -/

def operandHelp (left op right : String) : String :=
  if op = "+" ∧ ((left = "STRING" ∧ right = "INTEGER") ∨
      (left = "INTEGER" ∧ right = "STRING")) then
    "convert explicitly: `string(n)` to concatenate the number, or `int(s)` " ++
      "to add numerically"
  else if op = "+" ∧ ((left = "STRING" ∧ right = "FLOAT") ∨
      (left = "FLOAT" ∧ right = "STRING")) then
    "convert explicitly: `string(x)` to concatenate, or `float(s)` to add " ++
      "numerically"
  else if (left = "STRING" ∧ (right = "INTEGER" ∨ right = "FLOAT")) ∨
      ((left = "INTEGER" ∨ left = "FLOAT") ∧ right = "STRING") then
    "strings and numbers never compare equal; convert one side with `int`, " ++
      "`float` or `string`"
  else if op = "+" ∧ (left = "ARRAY" ∨ right = "ARRAY") then
    "use `push(array, value)` to append one element, or `[...a, ...b]` to " ++
      "combine arrays"
  else if (left = "BOOLEAN" ∧ right = "INTEGER") ∨
      (left = "INTEGER" ∧ right = "BOOLEAN") then
    "booleans are not numbers; choose a number with `cond ? 1 : 0`"
  else if left = "NULL" ∨ right = "NULL" then
    "one operand is null; check that the value was assigned and that the " ++
      "function returned something"
  else if left = "HASH" ∧ right = "HASH" then
    "maps cannot be combined with operators; copy entries in a " ++
      "`for (k, v in m)` loop"
  else
    "both operands of " ++ tick op ++ " must have compatible types"

/-- The operators that values of a type have. -/
def operatorsFor : String → String
  | "INTEGER" | "FLOAT" => "+ - * / % < > <= >= == != and unary -"
  | "STRING" => "+ (concatenation) == != < > <= >="
  | "BOOLEAN" => "! && || == !="
  | "ARRAY" => "+ (concatenation) [] (index) [:] (slice) == !="
  | "HASH" => "[] (lookup) . (member) == !="
  | "CHAR" | "RUNE" | "BYTE" => "== != < > <= >="
  | _ => "== !="

/-- What to do about a token that was expected and not found. -/
def missingTokenHelp : String → Option String
  | ")" => some "add the missing `)`; every `(` needs a matching `)`"
  | "\x7d" =>
    some "add the missing `\x7d`; every `\x7b` needs a matching `\x7d`"
  | "]" => some "add the missing `]`; every `[` needs a matching `]`"
  | "=" => some "a declaration needs an initializer: `let name = value`"
  | ";" => some "separate statements with `;` or a new line"
  | "identifier" =>
    some ("names start with a letter or `_`; keywords cannot be used as " ++
      "names")
  | "\x7b" =>
    some "blocks start with `\x7b`, e.g. `if (cond) \x7b ... \x7d`"
  | "(" => some "conditions and parameter lists are wrapped in parentheses"
  | _ => none

/-- How values of a type are used that cannot be called. -/
def calleeNotes : String → List String
  | "STRING" | "ARRAY" =>
    ["to read an element, index with `[]` instead of `()`"]
  | "HASH" => ["to read an entry, use `m[key]` or `m.key`"]
  | "STRUCT" => ["instantiate a struct with `Name \x7b field: value \x7d`"]
  | _ => []

/-- Which positions there are. -/
def boundsNote (length : Nat) : String :=
  if length = 0 then "the collection is empty"
  else "valid indices are 0 to " ++ toString (length - 1)

def boundsHelp (index : Int64) (length : Nat) : String :=
  if 0 < length ∧ index = Int64.ofNat length then
    "off by one? the last element is at index " ++ toString (length - 1) ++
      "; use `len(x) - 1` or `last(x)`"
  else
    "check the index against `len(x)` before indexing"

def usageHelp? (function : String) : Option String :=
  (Hint.usage? function).map ("usage: " ++ ·)

/-- What can be converted to a type. -/
def targetHelp : String → String
  | "int" => "only whole numbers such as \"42\" or \"-7\" convert to int"
  | "float" => "only numbers such as \"3.14\" or \"2\" convert to float"
  | "bool" => "only \"true\" and \"false\" convert to bool"
  | _ => "check the value before converting it"

def operatorHelp : String → String
  | "++" | "--" => "`++` and `--` apply to a variable holding an integer"
  | "=>" => "arrow functions take identifiers as parameters: `(a, b) => a + b`"
  | _ => "check the operands of this operator"

def noExpressionHelp : String → String
  | ")" | "]" | "\x7d" => "this closing bracket has no matching opening bracket"
  | "=" => "`=` needs a target on its left, e.g. `x = 1`"
  | "=>" => "arrow functions start with a parameter list: `(x) => x + 1`"
  | "else" => "`else` must follow the closing `\x7d` of an `if` block"
  | "case" | "default" => "`case` and `default` belong inside a `switch` block"
  | "catch" => "`catch` must follow the closing `\x7d` of a `try` block"
  | _ => "an expression was expected here"

def characterHelp : String → String
  | "&" => "logical and is `&&` or `and`"
  | "|" => "logical or is `||` or `or`"
  | "'" => "strings use double quotes or back-ticks: \"text\""
  | "#" => "comments start with `//` or are wrapped in `/* */`"
  | "@" => "decorators are not supported"
  | "$" => "variable names do not take a `$` prefix"
  | "\\" => "backslashes are only valid inside strings"
  | "^" => "there is no exponent operator; multiply in a loop"
  | "~" => "bitwise operators are not supported"
  | _ => "remove this character"

def integerRange : String :=
  "integers range from -9223372036854775808 to 9223372036854775807"

/-! ### Wordings -/

/-- The code, the words and the help of every problem. -/
def wording : Problem → Wording
  | typeMismatch left op right =>
    { code := .typeMismatch
      message := "type mismatch: " ++ left ++ " " ++ op ++ " " ++ right
      label := "cannot apply " ++ tick op ++ " to " ++ left ++ " and " ++ right
      notes :=
        ["left operand is " ++ left ++ ", right operand is " ++ right]
      help := some (operandHelp left op right) }
  | undefinedVariable name =>
    { code := .undefinedVariable
      message := "undefined variable " ++ tick name
      label := "not found in this scope"
      notes := ["names must be declared with `let`, `const` or `define` " ++
        "before they are used"]
      help := some ((Hint.spelling? name).getD
        ("declare it before use: `let " ++ name ++ " = ...`")) }
  | unknownOperator op type =>
    { code := .unknownOperator
      message := "unknown operator: " ++ op ++ type
      label := tick op ++ " is not defined for " ++ type
      help := some
        ("operators valid for " ++ type ++ ": " ++ operatorsFor type) }
  | unexpectedToken expected found =>
    { code := .unexpectedToken
      message := "expected " ++ tick expected ++ ", found " ++ tick found
      label := "unexpected " ++ tick found
      help := missingTokenHelp expected }
  | notAFunction type =>
    { code := .notAFunction
      message := "not a function: " ++ type
      label := type ++ " is not callable"
      notes := calleeNotes type
      help := some
        "only functions, arrow functions and built-ins can be called" }
  | indexOutOfBounds index length =>
    { code := .indexOutOfBounds
      message := "index out of bounds: index " ++ toString index ++
        ", length " ++ toString length
      label := "index out of range"
      notes := [boundsNote length]
      help := some (boundsHelp index length) }
  | divisionByZero =>
    { code := .divisionByZero
      message := "division by zero"
      label := "divisor evaluates to zero"
      help := some "check the divisor first: `if (d != 0) \x7b ... \x7d`" }
  | propertyNotFound property type =>
    { code := .propertyNotFound
      message := "property " ++ tick property ++ " not found on " ++ type
      label := type ++ " has no " ++ tick property
      help := some
        "check the spelling against the fields declared in the struct" }
  | structNotFound name =>
    { code := .structNotFound
      message := "struct " ++ tick name ++ " is not defined"
      label := "unknown struct"
      help := some ("declare it first: `struct " ++ name ++
        " \x7b field1, field2 \x7d`") }
  | invalidArgument function expected got =>
    { code := .invalidArgument
      message := "wrong arguments to " ++ tick function ++ ": expected " ++
        expected ++ ", got " ++ got
      label := "in this call"
      help := some ((usageHelp? function).getD
        ("check the parameter list of " ++ tick function)) }
  | slice detail =>
    { code := .slice
      message := "invalid slice: " ++ detail
      label := "in this slice"
      help := some ("slices take integer bounds on arrays and strings: " ++
        "`x[start:end]`, `x[:end]`, `x[start:]`") }
  | spread type =>
    { code := .spread
      message := "cannot spread " ++ type
      label := "spread here"
      help := some ("only arrays can be spread, and only inside an array " ++
        "literal: `[...items, 4]`") }
  | mapKey type =>
    { code := .hashKey
      message := "unusable as map key: " ++ type
      label := "this key"
      notes := ["map keys must be int, bool, string, char, byte, rune or " ++
        "enum values"]
      help := some "convert the key with `string(value)`" }
  | argumentType function position expected got =>
    { code := .argumentType
      message := "argument " ++ toString position ++ " to " ++ tick function ++
        " must be " ++ expected ++ ", got " ++ got
      label := "in this call"
      help := usageHelp? function }
  | notIterable type =>
    { code := .notIterable
      message := type ++ " is not iterable"
      label := "iterated here"
      help := some ("for-in loops accept arrays, strings, maps and ranges " ++
        "such as `0..10`") }
  | range detail =>
    { code := .range
      message := "invalid range: " ++ detail
      label := "in this range"
      help := some "range bounds must be integers: `start..end`" }
  | conversion value target =>
    { code := .conversion
      message := "cannot convert " ++ value ++ " to " ++ target
      label := "conversion fails here"
      help := some (targetHelp target) }
  | assignment target =>
    { code := .assignment
      message := "invalid assignment target: " ++ target
      label := "cannot assign to this"
      help := some ("only variables, index expressions (`a[i]`) and fields " ++
        "(`p.x`) can be assigned") }
  | operator op detail =>
    { code := .operator
      message := "invalid use of " ++ tick op ++ ": " ++ detail
      label := "here"
      help := some (operatorHelp op) }
  | memberAccess type property =>
    { code := .memberAccess
      message := "cannot access `." ++ property ++ "` on " ++ type
      label := "member access here"
      help := some
        "member access works on maps, struct instances and enums" }
  | detachedMethod method struct =>
    { code := .memberAccess
      message := "method " ++ tick method ++ " of " ++ struct ++
        " must be called, not read"
      label := "method read here"
      help := some ("call it as `." ++ method ++ "(...)`, or wrap the call " ++
        "in a lambda: `x => value." ++ method ++ "(x)`") }
  | moduleNotFound name =>
    { code := .moduleNotFound
      message := "module " ++ tick name ++ " not found"
      label := "included here"
      help := some "check the module name passed to `include`" }
  | annotationMismatch expected got =>
    { code := .typeAnnotationMismatch
      message := "type mismatch: expected " ++ tick expected ++ ", got " ++
        tick got
      label := "this is " ++ tick got
      help := Hint.conversion? expected got }
  | variableType name expected got =>
    { code := .variableTypeMismatch
      message := "type mismatch for variable " ++ tick name ++
        ": expected " ++ tick expected ++ ", got " ++ tick got
      label := "expected " ++ tick expected ++ " because of this annotation"
      notes := [tick name ++ " is declared as " ++ tick expected]
      help := some ((Hint.conversion? expected got).getD
        ("change the annotation to " ++ tick got ++
          " or remove it to accept any type")) }
  | parameterType function parameter expected got =>
    { code := .parameterTypeMismatch
      message := "type mismatch for parameter " ++ tick parameter ++ " of " ++
        tick function ++ ": expected " ++ tick expected ++ ", got " ++ tick got
      label := "argument for " ++ tick parameter ++ " is " ++ tick got
      notes := [tick function ++ " declares " ++
        tick (parameter ++ ": " ++ expected)]
      help := Hint.conversion? expected got }
  | returnType function expected got =>
    { code := .returnTypeMismatch
      message := tick function ++ " returned " ++ tick got ++
        ", but its return type is " ++ tick expected
      label := "returns " ++ tick got
      notes := ["declared with `-> " ++ expected ++ "`"]
      help := Hint.conversion? expected got }
  | unknownType name =>
    { code := .unknownType
      message := "unknown type " ++ tick name
      label := "not a type"
      notes := ["built-in types: int, float, string, bool, char, byte, " ++
        "rune, array, map, any, void"]
      help := some
        "custom types are declared with `struct` or `enum` before use" }
  | annotationRequired name =>
    { code := .typeAnnotationRequired
      message := tick name ++ " needs a type annotation"
      label := "annotation required here"
      help := some ("write " ++ tick (name ++ ": any") ++
        " to accept any value") }
  | elementType expected got position =>
    { code := .arrayTypeMismatch
      message := "array element " ++ toString position ++ " is " ++ tick got ++
        ", expected " ++ tick expected
      label := "expected every element to be " ++ tick expected
      help := some ("arrays annotated `[]T` hold only values of type T; " ++
        "use `[]any` to mix types") }
  | voidReturn function got =>
    { code := .voidReturn
      message := tick function ++ " is declared `void` but returned " ++
        tick got
      label := "value returned here"
      help := some "remove the returned value, or change the return type" }
  | missingReturn function expected =>
    { code := .missingReturn
      message := tick function ++ " must return " ++ tick expected ++
        ", but returned nothing"
      label := "function ends without a value"
      help := some ("end every path with `return` followed by a " ++
        tick expected ++ " value") }
  | recursionDepth limit function =>
    { code := .recursionDepth
      message := "maximum recursion depth of " ++ toString limit ++
        " exceeded in " ++ tick function
      label := "recursive call here"
      notes := ["every recursive function needs a base case that stops " ++
        "calling itself"]
      help := some ("check that the base case is reachable, or rewrite the " ++
        "recursion as a loop") }
  | offByOne detail =>
    { code := .offByOne
      message := "off-by-one: " ++ detail
      label := "this bound"
      help := some ("indices run from 0 to `len(x) - 1`; use `<` rather " ++
        "than `<=` against the length") }
  | emptyCollection op =>
    { code := .emptyCollection
      message := "cannot " ++ op ++ " from an empty collection"
      label := "collection is empty here"
      help := some "check `len(x) > 0` first" }
  | binarySearch detail =>
    { code := .binarySearch
      message := "binary search misuse: " ++ detail
      label := "in this search"
      notes :=
        ["binary search needs a sorted array and `low <= high` bounds"]
      help := some "compute the midpoint as `low + (high - low) / 2`" }
  | graphCycle node =>
    { code := .graphCycle
      message := "cycle detected at " ++ tick node
      label := "revisited here"
      help := some
        "track visited nodes in a map and skip the ones already seen" }
  | sortedArrayRequired function =>
    { code := .sortedArrayRequired
      message := tick function ++ " requires a sorted array"
      label := "this array is not sorted"
      help := some "sort the array before calling this function" }
  | negativeIndex index =>
    { code := .negativeIndex
      message := "negative index " ++ toString index
      label := "index must be zero or greater"
      notes := ["Victoria does not count from the end with negative indices"]
      help := some ("use `len(x) - n` to count from the end, or `last(x)` " ++
        "for the final element") }
  | constantReassignment name =>
    { code := .constantReassignment
      message := "cannot reassign constant " ++ tick name
      label := "assignment to a constant"
      notes := [tick name ++ " was declared with `const`"]
      help := some ("declare it with `let " ++ name ++
        " = ...` if it needs to change") }
  | unknownVariant enum variant known =>
    { code := .enumValue
      message := "enum " ++ tick enum ++ " has no variant " ++ tick variant
      label := "unknown variant"
      notes := if known.isEmpty then [] else
        ["variants of " ++ tick enum ++ ": " ++ ", ".intercalate known] }
  | characterConversion value =>
    { code := .characterConversion
      message := "cannot convert " ++ value ++ " to a character"
      label := "conversion fails here"
      notes := ["a character comes from a one-character string or a valid " ++
        "Unicode code point"]
      help := some "index a string with `s[i]` to take one character" }
  | makeDirective detail =>
    { code := .makeDirective
      message := "invalid make directive: " ++ detail
      label := "here"
      help := some "write `make(type, size)` with an integer size" }
  | malformed message =>
    { code := .parseError
      message
      label := "here" }
  | noExpression found =>
    { code := .parseError
      message := "expected an expression, found " ++ tick found
      label := "not the start of an expression"
      help := some (noExpressionHelp found) }
  | illegalCharacter text =>
    { code := .illegalCharacter
      message := "illegal character " ++ tick text
      label := "not valid here"
      help := some (characterHelp text) }
  | unterminatedString =>
    { code := .unterminatedString
      message := "unterminated string literal"
      label := "string starts here"
      help := some ("close the string with a matching quote; use " ++
        "back-ticks for strings that span lines") }
  | invalidInteger literal =>
    { code := .invalidIntegerLiteral
      message := "could not parse " ++ tick literal ++ " as an integer"
      label := "invalid integer"
      notes := [integerRange]
      help := some "use a float for values outside this range" }
  | invalidFloat literal =>
    { code := .invalidFloatLiteral
      message := "could not parse " ++ tick literal ++ " as a float"
      label := "invalid float"
      help := some ("floats are written as digits around a single `.`, " ++
        "e.g. `3.14` or `.5`") }
  | infiniteLoop =>
    { code := .infiniteLoop
      message := "this loop never ends: `while (true)` without `break` or " ++
        "`return`"
      label := "loop condition is always true"
      help := some ("add a `break` inside the loop, or loop on a " ++
        "condition that becomes false") }
  | nestedLoops depth =>
    { code := .timeComplexity
      message := "loop nested " ++ toString depth ++ " levels deep"
      label := "innermost loop"
      notes := ["running time grows as O(n^" ++ toString depth ++ ")"]
      help := some "a map lookup can often replace an inner loop" }
  | integerOverflow left op right =>
    { code := .integerOverflow
      message := "integer overflow in " ++
        tick (toString left ++ " " ++ op ++ " " ++ toString right)
      label := "result wrapped around"
      notes := [integerRange]
      help := some "use floats for values this large" }
  | nullComparison op =>
    { code := .comparisonWithNull
      message := "comparison with null using " ++ tick op
      label := "one side is null"
      notes := ["null usually means a function returned nothing or a map " ++
        "key is missing"] }
  | negativeModulo =>
    { code := .moduloWithNegative
      message := "`%` with a negative operand"
      label := "negative operand"
      notes := ["the result takes the sign of the left operand: " ++
        "-7 % 3 is -1"]
      help := some ("for a result that is never negative, write " ++
        "`((a % n) + n) % n`") }
  | treeRecursion function calls =>
    { code := .memoizationSuggestion
      message := tick function ++ " calls itself " ++ toString calls ++
        " times per invocation"
      label := "tree recursion"
      notes := ["the number of calls can grow exponentially with the input"]
      help := some "cache results in a map keyed by the arguments" }

def code (p : Problem) : Code := p.wording.code

def message (p : Problem) : String := p.wording.message

/-- The report of the problem at a location, which becomes its one label. -/
def report (p : Problem) (loc : Location) : Diagnostic :=
  let words := p.wording
  { severity := words.code.severity
    code := words.code
    message := words.message
    labels := [{ location := loc, message := words.label, primary := true }]
    notes := words.notes
    help := words.help }

@[simp]
theorem location?_report (p : Problem) (loc : Location) :
    (p.report loc).location? = some loc := rfl

end Problem

end Script
