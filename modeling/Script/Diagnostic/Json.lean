import Script.Diagnostic

/-!
# Diagnostics as JSON

One diagnostic as one line of JSON, without blanks between the tokens.  Only
quotes, backslashes and control characters are escaped in strings.
-/

namespace Script.Json

def hexDigit (n : Nat) : Char :=
  Char.ofNat (if n < 10 then '0'.toNat + n else 'a'.toNat + (n - 10))

def escape (c : Char) : List Char :=
  if c = '"' then ['\\', '"']
  else if c = '\\' then ['\\', '\\']
  else if c = '\n' then ['\\', 'n']
  else if c = '\r' then ['\\', 'r']
  else if c = '\t' then ['\\', 't']
  else if c = '\x08' then ['\\', 'b']
  else if c = '\x0c' then ['\\', 'f']
  else if c.toNat < 32 then
    ['\\', 'u', '0', '0', hexDigit (c.toNat / 16), hexDigit (c.toNat % 16)]
  else [c]

def string (text : String) : String :=
  String.ofList ('"' :: text.toList.flatMap escape ++ ['"'])

def bool (b : Bool) : String := if b then "true" else "false"

def array (items : List String) : String :=
  "[" ++ ",".intercalate items ++ "]"

def object (fields : List (String × String)) : String :=
  "\x7b" ++ ",".intercalate
    (fields.map fun (key, value) => string key ++ ":" ++ value) ++ "\x7d"

def location (loc : Location) : String :=
  object
    [("line", toString loc.line), ("column", toString loc.column),
     ("end_line", toString loc.endLine), ("end_column", toString loc.endColumn),
     ("filename", string loc.file)]

def label (l : Label) : String :=
  object
    [("location", location l.location), ("message", string l.message),
     ("primary", bool l.primary)]

def diagnostic (d : Diagnostic) : String :=
  object
    [("kind", string d.severity.text), ("code", string d.code.text),
     ("message", string d.message), ("labels", array (d.labels.map label)),
     ("notes", array (d.notes.map string)),
     ("help", (d.help.map string).getD "null")]

end Script.Json
