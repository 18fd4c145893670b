import Script.Text.CaseTable

/-!
# Capital and small letters

The full case mappings of Unicode.  A letter may have several characters for its
capital form, and a capital sigma is written differently at the end of a word.
-/

namespace Script.Text

def capitals (c : Char) : List Char :=
  match mapped? capitalRuns c.toNat with
  | some n => [Char.ofNat n]
  | none => ((longCapitals.lookup c.toNat).map (·.map Char.ofNat)).getD [c]

/-- The text in capital letters. -/
def upper (text : String) : String :=
  String.ofList (text.toList.flatMap capitals)

def isCased (c : Char) : Bool := inRanges casedRanges c.toNat

def isCaseIgnorable (c : Char) : Bool := inRanges caseIgnorableRanges c.toNat

/-- Whether the first character that is not ignorable has a case. -/
def touchesLetter (text : List Char) : Bool :=
  match text.dropWhile isCaseIgnorable with
  | [] => false
  | c :: _ => isCased c

/-- The small form of a character.  `before` is the text in front of it, nearest
character first, and `after` the text behind it: a sigma that has a letter
before it and none behind it ends a word. -/
def smalls (before : List Char) (c : Char) (after : List Char) : List Char :=
  if c = 'Σ' then
    [if touchesLetter before && !touchesLetter after then 'ς' else 'σ']
  else if c = 'İ' then
    ['i', Char.ofNat 0x307]
  else
    match mapped? smallRuns c.toNat with
    | some n => [Char.ofNat n]
    | none => [c]

def lowerFrom (before : List Char) : List Char → List Char
  | [] => []
  | c :: after => smalls before c after ++ lowerFrom (c :: before) after

/-- The text in small letters. -/
def lower (text : String) : String :=
  String.ofList (lowerFrom [] text.toList)

end Script.Text
