import Script.Text.Hidden

/-!
# Quoted texts

How a string or a character looks inside a collection: in quotes, with an escape
for every character that would be misread or not be seen.
-/

namespace Script.Text

def hexDigits (n : Nat) : List Char := Nat.toDigits 16 n

/-- The escape of a code point by its number. -/
def numberEscape (c : Char) : List Char :=
  ['\\', 'u', '\x7b'] ++ hexDigits c.toNat ++ ['\x7d']

/-- A character between two quotes of the given kind. -/
def quotedChar (quote c : Char) : List Char :=
  if c = '\n' then ['\\', 'n']
  else if c = '\r' then ['\\', 'r']
  else if c = '\t' then ['\\', 't']
  else if c = '\x00' then ['\\', '0']
  else if c = '\\' then ['\\', '\\']
  else if c = quote then ['\\', c]
  else if isHidden c then numberEscape c
  else [c]

def quoted (quote : Char) (text : List Char) : String :=
  String.ofList (quote :: text.flatMap (quotedChar quote) ++ [quote])

/-- A text in double quotes. -/
def quotedString (text : String) : String := quoted '"' text.toList

/-- A character in single quotes. -/
def quotedCharacter (c : Char) : String := quoted '\x27' [c]

end Script.Text
