/-!
# Searching texts

Occurrences of one list in another, from left to right and without overlap:
whether there is one, where the first one is, what lies between them, and what
comes of replacing them.
-/

namespace Script.Text

/-- What follows `start` in a text that starts with it. -/
def after? : List Char → List Char → Option (List Char)
  | [], text => some text
  | _ :: _, [] => none
  | c :: start, d :: text => if c = d then after? start text else none

/-- The position of the first occurrence. -/
def position? (part : List Char) : List Char → Option Nat
  | [] => if part.isEmpty then some 0 else none
  | c :: text =>
    if (after? part (c :: text)).isSome then some 0
    else (position? part text).map (· + 1)

/-- The pieces between the occurrences of `separator`, which is not empty.
`skip` counts the characters of an occurrence that are still to be passed over,
and `piece` holds the piece that is being read, last character first. -/
def pieces (separator : List Char) :
    Nat → List Char → List Char → List (List Char)
  | _, piece, [] => [piece.reverse]
  | skip + 1, piece, _ :: text => pieces separator skip piece text
  | 0, piece, c :: text =>
    if (after? separator (c :: text)).isSome then
      piece.reverse :: pieces separator (separator.length - 1) [] text
    else
      pieces separator 0 (c :: piece) text

/-- The pieces of a text between the occurrences of a separator.  The empty
separator occurs before, between and behind all characters. -/
def splitOn (separator text : String) : List String :=
  if separator.isEmpty then
    "" :: text.toList.map String.singleton ++ [""]
  else
    (pieces separator.toList 0 [] text.toList).map String.ofList

/-- A copy of the text with `new` in the place of each occurrence of `part`.
`skip` counts the characters of an occurrence that are still to be left out.  The
empty text occurs before each character, which is copied behind `new`, and at the
end. -/
def replaced (part new : List Char) : Nat → List Char → List Char
  | 0, [] => if part.isEmpty then new else []
  | _ + 1, [] => []
  | skip + 1, _ :: text => replaced part new skip text
  | 0, c :: text =>
    if (after? part (c :: text)).isSome then
      match part with
      | [] => new ++ c :: replaced part new 0 text
      | _ :: others => new ++ replaced part new others.length text
    else c :: replaced part new 0 text

/-- The text with every occurrence of `part` replaced. -/
def replace (part new text : String) : String :=
  String.ofList (replaced part.toList new.toList 0 text.toList)

/-- Whether `part` is at the start of the text or of what follows some character
of it. -/
def occursIn (part : List Char) : List Char → Bool
  | [] => part.isEmpty
  | c :: text => (after? part (c :: text)).isSome || occursIn part text

def contains (part text : String) : Bool :=
  occursIn part.toList text.toList

def startsWith (start text : String) : Bool :=
  (after? start.toList text.toList).isSome

def endsWith (stop text : String) : Bool :=
  (after? stop.toList.reverse text.toList.reverse).isSome

end Script.Text
