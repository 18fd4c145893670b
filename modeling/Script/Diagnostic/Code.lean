/-!
# Diagnostic codes

Every report carries a stable code.  Codes `E` are errors, codes `W` warnings
and codes `N` notes; the last two are raised by programs that go on running.
-/

namespace Script

/-- How serious a report is. -/
inductive Severity where
  | error | warning | note | help
  deriving DecidableEq, Repr, Inhabited

def Severity.text : Severity → String
  | error => "error"
  | warning => "warning"
  | note => "note"
  | help => "help"

inductive Code where
  | typeMismatch | undefinedVariable | unknownOperator | unexpectedToken
  | notAFunction | indexOutOfBounds | divisionByZero | propertyNotFound
  | structNotFound | invalidArgument | slice | spread | hashKey | argumentType
  | notIterable | range | conversion | assignment | operator | memberAccess
  | moduleNotFound | typeAnnotationMismatch | variableTypeMismatch
  | parameterTypeMismatch | returnTypeMismatch | unknownType
  | typeAnnotationRequired | arrayTypeMismatch | voidReturn | missingReturn
  | recursionDepth | offByOne | emptyCollection | binarySearch | graphCycle
  | sortedArrayRequired | negativeIndex | constantReassignment | enumValue
  | characterConversion | makeDirective | parseError | illegalCharacter
  | unterminatedString | invalidIntegerLiteral | invalidFloatLiteral
  | infiniteLoop | timeComplexity | integerOverflow | comparisonWithNull
  | moduloWithNegative | memoizationSuggestion
  deriving DecidableEq, Repr, Inhabited

namespace Code

/-- The printed code. -/
def text : Code → String
  | typeMismatch => "E0001"
  | undefinedVariable => "E0002"
  | unknownOperator => "E0003"
  | unexpectedToken => "E0004"
  | notAFunction => "E0005"
  | indexOutOfBounds => "E0006"
  | divisionByZero => "E0007"
  | propertyNotFound => "E0008"
  | structNotFound => "E0009"
  | invalidArgument => "E0010"
  | slice => "E0011"
  | spread => "E0012"
  | hashKey => "E0013"
  | argumentType => "E0014"
  | notIterable => "E0015"
  | range => "E0016"
  | conversion => "E0017"
  | assignment => "E0018"
  | operator => "E0019"
  | memberAccess => "E0020"
  | moduleNotFound => "E0021"
  | typeAnnotationMismatch => "E0030"
  | variableTypeMismatch => "E0031"
  | parameterTypeMismatch => "E0032"
  | returnTypeMismatch => "E0033"
  | unknownType => "E0034"
  | typeAnnotationRequired => "E0035"
  | arrayTypeMismatch => "E0036"
  | voidReturn => "E0037"
  | missingReturn => "E0038"
  | recursionDepth => "E0040"
  | offByOne => "E0041"
  | emptyCollection => "E0042"
  | binarySearch => "E0043"
  | graphCycle => "E0044"
  | sortedArrayRequired => "E0045"
  | negativeIndex => "E0046"
  | constantReassignment => "E0047"
  | enumValue => "E0048"
  | characterConversion => "E0049"
  | makeDirective => "E0050"
  | parseError => "E0100"
  | illegalCharacter => "E0101"
  | unterminatedString => "E0102"
  | invalidIntegerLiteral => "E0103"
  | invalidFloatLiteral => "E0104"
  | infiniteLoop => "W0001"
  | timeComplexity => "W0002"
  | integerOverflow => "W0003"
  | comparisonWithNull => "W0004"
  | moduloWithNegative => "W0005"
  | memoizationSuggestion => "N0001"

/-- The severity that goes with the code. -/
def severity : Code → Severity
  | infiniteLoop | timeComplexity | integerOverflow | comparisonWithNull
  | moduloWithNegative => .warning
  | memoizationSuggestion => .note
  | _ => .error

/-- The name of the category. -/
def title : Code → String
  | typeMismatch => "type mismatch"
  | undefinedVariable => "undefined variable"
  | unknownOperator => "unknown operator"
  | unexpectedToken => "unexpected token"
  | notAFunction => "not a function"
  | indexOutOfBounds => "index out of bounds"
  | divisionByZero => "division by zero"
  | propertyNotFound => "property not found"
  | structNotFound => "struct not found"
  | invalidArgument => "invalid argument"
  | slice => "invalid slice"
  | spread => "invalid spread"
  | hashKey => "unusable map key"
  | argumentType => "argument type"
  | notIterable => "not iterable"
  | range => "invalid range"
  | conversion => "conversion failed"
  | assignment => "invalid assignment"
  | operator => "invalid operator use"
  | memberAccess => "invalid member access"
  | moduleNotFound => "module not found"
  | typeAnnotationMismatch => "type annotation mismatch"
  | variableTypeMismatch => "variable type mismatch"
  | parameterTypeMismatch => "parameter type mismatch"
  | returnTypeMismatch => "return type mismatch"
  | unknownType => "invalid type annotation"
  | typeAnnotationRequired => "type annotation required"
  | arrayTypeMismatch => "array element type mismatch"
  | voidReturn => "value returned from void function"
  | missingReturn => "missing return value"
  | recursionDepth => "recursion too deep"
  | offByOne => "off-by-one"
  | emptyCollection => "empty collection"
  | binarySearch => "binary search misuse"
  | graphCycle => "graph cycle"
  | sortedArrayRequired => "sorted array required"
  | negativeIndex => "negative index"
  | constantReassignment => "constant reassignment"
  | enumValue => "unknown enum variant"
  | characterConversion => "character conversion"
  | makeDirective => "invalid make directive"
  | parseError => "parse error"
  | illegalCharacter => "illegal character"
  | unterminatedString => "unterminated string"
  | invalidIntegerLiteral => "invalid integer literal"
  | invalidFloatLiteral => "invalid float literal"
  | infiniteLoop => "possible infinite loop"
  | timeComplexity => "high time complexity"
  | integerOverflow => "integer overflow"
  | comparisonWithNull => "comparison with null"
  | moduloWithNegative => "modulo with negative operand"
  | memoizationSuggestion => "memoization opportunity"

end Code

end Script
