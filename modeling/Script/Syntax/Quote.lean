/-!
# String literals

How a text is written as a string literal in double quotes.  Five characters
are escaped, and all others stand for themselves.
-/

namespace Script.Syntax

def escape : Char → List Char
  | '"' => ['\\', '"']
  | '\\' => ['\\', '\\']
  | '\n' => ['\\', 'n']
  | '\t' => ['\\', 't']
  | '\r' => ['\\', 'r']
  | c => [c]

/-- The literal whose contents are `text`. -/
def quote (text : String) : String :=
  String.ofList ('"' :: text.toList.flatMap escape ++ ['"'])

end Script.Syntax
