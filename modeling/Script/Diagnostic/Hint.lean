/-!
# Hints

Help that depends on a name or on a pair of types: what to write instead of a
spelling known from other languages, how a built-in function is called, and
which conversion leads from one type to another.
-/

namespace Script.Hint

/-- Names that people bring from other languages, with what to write here. -/
def spellings : List (String × String) :=
  [("println", "use `print(...)`; it already ends the line"),
   ("printf", "use `print(format(\"...\x7b\x7d\", value))`"),
   ("printLn", "use `print(...)`"),
   ("puts", "use `print(...)`"),
   ("echo", "use `print(...)`"),
   ("console", "use `print(...)` instead of `console.log(...)`"),
   ("log", "use `print(...)` to write output"),
   ("write", "use `print(...)` to write output"),
   ("fmt", "use `format(template, args...)` or `print(...)`"),
   ("sprintf", "use `format(template, args...)`"),
   ("scanf", "use `input(prompt)` to read a line"),
   ("readline", "use `input(prompt)` to read a line"),
   ("raw_input", "use `input(prompt)`"),
   ("gets", "use `input(prompt)`"),
   ("var", "declare variables with `let name = value`"),
   ("val", "declare constants with `const name = value`"),
   ("final", "declare constants with `const name = value`"),
   ("function", "declare functions with `define name(params) \x7b ... \x7d`"),
   ("func", "declare functions with `define name(params) \x7b ... \x7d`"),
   ("fn", "declare functions with `define name(params) \x7b ... \x7d`"),
   ("def", "declare functions with `define name(params) \x7b ... \x7d`"),
   ("fun", "declare functions with `define name(params) \x7b ... \x7d`"),
   ("lambda", "write anonymous functions as `(x) => x * 2`"),
   ("class",
    "use `struct Name \x7b fields \x7d` and `define Name.method() \x7b ... \x7d`"),
   ("new", "instantiate structs with `Name \x7b field: value \x7d`"),
   ("this", "methods receive the instance as `self`"),
   ("elif", "use `else if (...) \x7b ... \x7d`"),
   ("elsif", "use `else if (...) \x7b ... \x7d`"),
   ("elseif", "use `else if (...) \x7b ... \x7d`"),
   ("foreach", "use `for (item in collection) \x7b ... \x7d`"),
   ("forEach", "use `for (item in collection) \x7b ... \x7d`"),
   ("until", "use `while (!condition) \x7b ... \x7d`"),
   ("loop", "use `while (true) \x7b ... \x7d` with `break`"),
   ("match", "use `switch (value) \x7b case x \x7b ... \x7d \x7d`"),
   ("except", "use `try \x7b ... \x7d catch (e) \x7b ... \x7d`"),
   ("rescue", "use `try \x7b ... \x7d catch (e) \x7b ... \x7d`"),
   ("throw",
    "errors propagate automatically; catch them with `try \x7b ... \x7d catch (e) \x7b ... \x7d`"),
   ("raise",
    "errors propagate automatically; catch them with `try \x7b ... \x7d catch (e) \x7b ... \x7d`"),
   ("import", "use `include \"module\"`"),
   ("require", "use `include \"module\"`"),
   ("using", "use `include \"module\"`"),
   ("null",
    "an absent value is produced by a function with no result; compare against a function's output instead"),
   ("nil",
    "an absent value is produced by a function with no result; compare against a function's output instead"),
   ("None",
    "an absent value is produced by a function with no result; compare against a function's output instead"),
   ("undefined", "declare the variable with `let` before using it"),
   ("True", "booleans are lowercase: `true`"),
   ("False", "booleans are lowercase: `false`"),
   ("TRUE", "booleans are lowercase: `true`"),
   ("FALSE", "booleans are lowercase: `false`"),
   ("self",
    "`self` is only bound inside methods declared with `define Struct.method(...)`"),
   ("length", "use `len(x)`"),
   ("size", "use `len(x)`"),
   ("count", "use `len(x)`"),
   ("strlen", "use `len(s)`"),
   ("append", "use `push(array, value)`"),
   ("add", "use `push(array, value)`"),
   ("insert", "use `push(array, value)` or `map[key] = value`"),
   ("shift", "use `first(array)` and `rest(array)`"),
   ("head", "use `first(array)`"),
   ("tail", "use `rest(array)`"),
   ("includes", "use `contains(collection, value)`"),
   ("has", "use `contains(collection, value)`"),
   ("indexOf", "use `index(collection, value)`"),
   ("find", "use `index(collection, value)` or `filter(array, fn)`"),
   ("fold", "use `reduce(array, fn, initial)`"),
   ("foldl", "use `reduce(array, fn, initial)`"),
   ("select", "use `filter(array, fn)`"),
   ("collect", "use `map(array, fn)`"),
   ("keySet", "use `keys(map)`"),
   ("items", "iterate pairs with `for (k, v in map) \x7b ... \x7d`"),
   ("entries", "iterate pairs with `for (k, v in map) \x7b ... \x7d`"),
   ("xrange", "use `range(start, end)` or `start..end`"),
   ("toUpperCase", "use `upper(s)`"),
   ("toLowerCase", "use `lower(s)`"),
   ("toupper", "use `upper(s)`"),
   ("tolower", "use `lower(s)`"),
   ("uppercase", "use `upper(s)`"),
   ("lowercase", "use `lower(s)`"),
   ("str", "use `string(x)` to convert to a string"),
   ("toString", "use `string(x)`"),
   ("String", "use `string(x)`; type names are lowercase"),
   ("parseInt", "use `int(s)`"),
   ("atoi", "use `int(s)`"),
   ("Integer", "use `int(x)`; type names are lowercase"),
   ("parseFloat", "use `float(s)`"),
   ("atof", "use `float(s)`"),
   ("Boolean", "use `bool(x)`; type names are lowercase"),
   ("typeof", "use `type(x)`"),
   ("instanceof", "compare `type(x)` with a type name"),
   ("split_string", "use `split(s, separator)`"),
   ("implode", "use `join(array, separator)`"),
   ("explode", "use `split(s, separator)`")]

/-- What to write instead of a name that is not defined. -/
def spelling? (name : String) : Option String := spellings.lookup name

/-- How each built-in function is called. -/
def usages : List (String × String) :=
  [("len", "len(collection) -> int"),
   ("push", "push(array, value) -> array"),
   ("pop", "pop(array) -> value"),
   ("first", "first(array) -> value"),
   ("last", "last(array) -> value"),
   ("rest", "rest(array) -> array"),
   ("split", "split(string, separator) -> array"),
   ("join", "join(array, separator) -> string"),
   ("upper", "upper(string) -> string"),
   ("lower", "lower(string) -> string"),
   ("contains", "contains(collection, value) -> bool"),
   ("index", "index(collection, value) -> int"),
   ("map", "map(array, fn) -> array"),
   ("filter", "filter(array, fn) -> array"),
   ("reduce", "reduce(array, fn, initial) -> value"),
   ("range", "range(end) or range(start, end) -> range"),
   ("format", "format(template, args...) -> string"),
   ("int", "int(value) -> int"),
   ("string", "string(value) -> string"),
   ("float", "float(value) -> float"),
   ("bool", "bool(value) -> bool"),
   ("char", "char(string or int) -> char"),
   ("byte", "byte(int) -> byte"),
   ("rune", "rune(string or int) -> rune"),
   ("type", "type(value) -> string"),
   ("keys", "keys(map) -> array"),
   ("values", "values(map) -> array"),
   ("print", "print(values...)"),
   ("input", "input(prompt?) -> string")]

/-- How a built-in function is called, shown when it is called wrongly. -/
def usage? (name : String) : Option String := usages.lookup name

/-- The conversion that turns a value of type `got` into one of type
`expected`. -/
def conversion? (expected got : String) : Option String :=
  match expected, got with
  | "int", "string" => some "convert with `int(value)` first"
  | "int", "float" => some "truncate with `int(value)` first"
  | "float", "string" => some "convert with `float(value)` first"
  | "string", "int" | "string", "float" | "string", "bool" =>
    some "convert with `string(value)` first"
  | "bool", _ => some "produce a boolean with a comparison or `bool(value)`"
  | "char", "int" => some "convert a code point with `char(value)`"
  | "array", _ => some "wrap the value in brackets: `[value]`"
  | _, _ => none

end Script.Hint
