import Script.Token

/-!
# Splitting source text into tokens

`Cursor.next` skips the gap in front of a token and reads the token.  It looks
at most two characters ahead, and every token but the last takes at least one
character, so `tokenize` ends with the end-of-input token.
-/

namespace Script

/-- The unread part of a source text, with the position of its first
character. -/
structure Cursor where
  rest : List Char
  line : Nat
  column : Nat
  deriving DecidableEq, Repr, Inhabited

namespace Cursor

def start (source : String) : Cursor :=
  { rest := source.toList, line := 1, column := 1 }

/-- The cursor after reading `c`, with `rest` still unread. -/
def past (cursor : Cursor) (c : Char) (rest : List Char) : Cursor :=
  if c = '\n' then { rest, line := cursor.line + 1, column := 1 }
  else { rest, line := cursor.line, column := cursor.column + 1 }

/-- The cursor after reading `count` characters of one line. -/
def along (cursor : Cursor) (count : Nat) (rest : List Char) : Cursor :=
  { rest, line := cursor.line, column := cursor.column + count }

/-! ### Gaps between tokens -/

/-- What the text between two tokens consists of. -/
inductive Gap where
  | blank | lineComment | blockComment
  deriving DecidableEq, Repr

def isBlank (c : Char) : Bool :=
  c = ' ' || c = '\t' || c = '\n' || c = '\r'

/-- Skips blanks and comments.  A block comment that is never closed runs to
the end of the text. -/
def skipGap : Gap → List Char → Nat → Nat → Cursor
  | .blank, '/' :: '/' :: rest, line, column =>
    skipGap .lineComment rest line (column + 2)
  | .blank, '/' :: '*' :: rest, line, column =>
    skipGap .blockComment rest line (column + 2)
  | .blank, c :: rest, line, column =>
    if c = '\n' then skipGap .blank rest (line + 1) 1
    else if isBlank c then skipGap .blank rest line (column + 1)
    else { rest := c :: rest, line, column }
  | .lineComment, c :: rest, line, column =>
    if c = '\n' then skipGap .blank rest (line + 1) 1
    else skipGap .lineComment rest line (column + 1)
  | .blockComment, '*' :: '/' :: rest, line, column =>
    skipGap .blank rest line (column + 2)
  | .blockComment, c :: rest, line, column =>
    if c = '\n' then skipGap .blockComment rest (line + 1) 1
    else skipGap .blockComment rest line (column + 1)
  | _, [], line, column => { rest := [], line, column }

def skip (cursor : Cursor) : Cursor :=
  skipGap .blank cursor.rest cursor.line cursor.column

/-! ### Strings -/

/-- The character that an escape stands for. -/
def unescape : Char → Char
  | 'n' => '\n'
  | 't' => '\t'
  | 'r' => '\r'
  | c => c

/-- How the reading of a string ended: its contents, whether the closing quote
was found, and the cursor behind it. -/
structure StringBody where
  contents : List Char
  closed : Bool
  after : Cursor
  deriving Repr

/-- Reads the contents of a string whose opening quote has been read;
`read` holds the characters so far, last one first.  A string in double quotes
also ends, unclosed, at the end of its line. -/
def readString (quote : Char) : List Char → List Char → Cursor → StringBody
  | [], read, cursor =>
    { contents := read.reverse, closed := false,
      after := { cursor with rest := [] } }
  | c :: rest, read, cursor =>
    if c = '\n' ∧ quote = '"' then
      { contents := read.reverse, closed := false, after := cursor.past c rest }
    else if c = quote then
      { contents := read.reverse, closed := true, after := cursor.past c rest }
    else if c = '\\' then
      match rest with
      | [] =>
        { contents := read.reverse, closed := false, after := cursor.past c [] }
      | e :: rest' =>
        readString quote rest' (unescape e :: read)
          ((cursor.past c rest).past e rest')
    else
      readString quote rest (c :: read) (cursor.past c rest)

/-! ### Tokens -/

/-- Operators of two characters.  They win over operators of one. -/
def pairKind? : Char → Char → Option Token.Kind
  | '=', '=' => some .eq
  | '=', '>' => some .fatArrow
  | '!', '=' => some .notEq
  | '<', '=' => some .le
  | '>', '=' => some .ge
  | '+', '=' => some .plusAssign
  | '-', '=' => some .minusAssign
  | '*', '=' => some .starAssign
  | '/', '=' => some .slashAssign
  | '%', '=' => some .percentAssign
  | '+', '+' => some .increment
  | '-', '-' => some .decrement
  | '-', '>' => some .arrow
  | '&', '&' => some .and
  | '|', '|' => some .or
  | _, _ => none

/-- Operators and punctuation of one character. -/
def singleKind? : Char → Option Token.Kind
  | '=' => some .assign
  | '+' => some .plus
  | '-' => some .minus
  | '*' => some .asterisk
  | '/' => some .slash
  | '%' => some .percent
  | '<' => some .lt
  | '>' => some .gt
  | '!' => some .bang
  | '.' => some .dot
  | ',' => some .comma
  | ';' => some .semicolon
  | ':' => some .colon
  | '?' => some .question
  | '(' => some .lparen
  | ')' => some .rparen
  | '\x7b' => some .lbrace
  | '\x7d' => some .rbrace
  | '[' => some .lbracket
  | ']' => some .rbracket
  | _ => none

def isDigit (c : Char) : Bool := '0' ≤ c && c ≤ '9'

/-- Characters that start a name: ASCII letters and the underscore. -/
def startsName (c : Char) : Bool :=
  ('a' ≤ c && c ≤ 'z') || ('A' ≤ c && c ≤ 'Z') || c = '_'

def continuesName (c : Char) : Bool := startsName c || isDigit c

/-- Whether a digit comes next. -/
def digitNext : List Char → Bool
  | c :: _ => isDigit c
  | [] => false

/-- A token made of the next characters `text` of the current line. -/
def emit (cursor : Cursor) (kind : Token.Kind) (text rest : List Char) :
    Token × Cursor :=
  ({ kind, text := String.ofList text, line := cursor.line,
     column := cursor.column, endColumn := cursor.column + text.length },
   cursor.along text.length rest)

/-- A string token.  Only a closed string of one line ends where its closing
quote does; any other is given the width of its opening quote. -/
def emitString (cursor : Cursor) (quote : Char) (rest : List Char) :
    Token × Cursor :=
  let body := readString quote rest [] (cursor.past quote rest)
  let endColumn :=
    if body.closed && body.after.line == cursor.line then body.after.column
    else cursor.column + 1
  ({ kind := if body.closed then .str else .unterminatedString,
     text := String.ofList body.contents, line := cursor.line,
     column := cursor.column, endColumn },
   body.after)

/-- A token that starts with a dot: a spread, a range, a fraction or a dot. -/
def emitDot (cursor : Cursor) (rest : List Char) : Token × Cursor :=
  match rest with
  | '.' :: '.' :: rest' => cursor.emit .spread ['.', '.', '.'] rest'
  | '.' :: rest' => cursor.emit .range ['.', '.'] rest'
  | _ =>
    if digitNext rest then
      cursor.emit .float ('.' :: rest.takeWhile isDigit) (rest.dropWhile isDigit)
    else
      cursor.emit .dot ['.'] rest

/-- A number that starts with the digits `whole`.  A dot belongs to it only if
a digit follows. -/
def emitNumber (cursor : Cursor) (whole rest : List Char) : Token × Cursor :=
  match rest with
  | '.' :: rest' =>
    if digitNext rest' then
      cursor.emit .float (whole ++ '.' :: rest'.takeWhile isDigit)
        (rest'.dropWhile isDigit)
    else
      cursor.emit .int whole rest
  | _ => cursor.emit .int whole rest

/-- A name or a reserved word. -/
def emitWord (cursor : Cursor) (word rest : List Char) : Token × Cursor :=
  cursor.emit ((Token.Kind.ofWord? (String.ofList word)).getD .ident) word rest

/-- The token that starts at the cursor, where the gap in front of it has been
skipped. -/
def read (cursor : Cursor) : Token × Cursor :=
  match cursor.rest with
  | [] =>
    ({ kind := .eof, text := "", line := cursor.line, column := cursor.column,
       endColumn := cursor.column + 1 }, cursor)
  | c :: rest =>
    match rest.head?.bind (pairKind? c) with
    | some kind => cursor.emit kind (c :: rest.take 1) (rest.drop 1)
    | none =>
      if c = '.' then cursor.emitDot rest
      else if c = '"' ∨ c = '\x60' then cursor.emitString c rest
      else if isDigit c then
        cursor.emitNumber (c :: rest.takeWhile isDigit) (rest.dropWhile isDigit)
      else if startsName c then
        cursor.emitWord (c :: rest.takeWhile continuesName)
          (rest.dropWhile continuesName)
      else
        cursor.emit ((singleKind? c).getD .illegal) [c] rest

/-- The next token and the cursor behind it.  At the end of the text this is
the end-of-input token, however often it is asked for. -/
def next (cursor : Cursor) : Token × Cursor := cursor.skip.read

/-! ### Every token shortens the text -/

@[simp]
theorem past_rest (cursor : Cursor) (c : Char) (rest : List Char) :
    (cursor.past c rest).rest = rest := by
  unfold past
  split <;> rfl

@[simp]
theorem emit_rest (cursor : Cursor) (kind : Token.Kind)
    (text rest : List Char) : (cursor.emit kind text rest).2.rest = rest := rfl

theorem length_skipGap_le (gap : Gap) (text : List Char) (line column : Nat) :
    (skipGap gap text line column).rest.length ≤ text.length := by
  fun_induction skipGap gap text line column <;> simp_all <;> omega

theorem length_skip_le (cursor : Cursor) :
    cursor.skip.rest.length ≤ cursor.rest.length :=
  length_skipGap_le _ _ _ _

theorem length_readString_le (quote : Char) (text read : List Char)
    (cursor : Cursor) :
    (readString quote text read cursor).after.rest.length ≤ text.length := by
  fun_induction readString quote text read cursor <;> simp_all <;> omega

theorem length_dropWhile_le (keep : Char → Bool) (text : List Char) :
    (text.dropWhile keep).length ≤ text.length :=
  (List.dropWhile_sublist keep).length_le

theorem length_emitDot_le (cursor : Cursor) (rest : List Char) :
    (cursor.emitDot rest).2.rest.length ≤ rest.length := by
  unfold emitDot
  split
  · simp only [emit_rest, List.length_cons]; omega
  · simp
  · split
    · exact length_dropWhile_le _ _
    · exact Nat.le_refl _

theorem length_emitNumber_le (cursor : Cursor) (whole rest : List Char) :
    (cursor.emitNumber whole rest).2.rest.length ≤ rest.length := by
  unfold emitNumber
  split
  · split
    · exact Nat.le_succ_of_le (length_dropWhile_le _ _)
    · exact Nat.le_refl _
  · exact Nat.le_refl _

theorem length_read_lt {cursor : Cursor} (hrest : cursor.rest ≠ []) :
    cursor.read.2.rest.length < cursor.rest.length := by
  unfold read
  split
  · contradiction
  next c rest heq =>
    rw [heq, List.length_cons]
    split
    · simp only [emit_rest, List.length_drop]; omega
    · repeat' split
      · exact Nat.lt_succ_of_le (length_emitDot_le _ _)
      · exact Nat.lt_succ_of_le (length_readString_le _ _ _ _)
      · exact Nat.lt_succ_of_le
          (Nat.le_trans (length_emitNumber_le _ _ _) (length_dropWhile_le _ _))
      · exact Nat.lt_succ_of_le (length_dropWhile_le _ _)
      · exact Nat.lt_succ_self _

theorem length_next_lt {cursor : Cursor} (hkind : cursor.next.1.kind ≠ .eof) :
    cursor.next.2.rest.length < cursor.rest.length := by
  have hrest : cursor.skip.rest ≠ [] := by
    intro hnil
    apply hkind
    unfold next read
    rw [hnil]
  exact Nat.lt_of_lt_of_le (length_read_lt hrest) (length_skip_le cursor)

/-- The tokens from the cursor on, in front of the tokens `before` that have
been read already, last one first. -/
def tokensAfter (before : List Token) (cursor : Cursor) : List Token :=
  if cursor.next.1.kind = .eof then
    (cursor.next.1 :: before).reverse
  else
    tokensAfter (cursor.next.1 :: before) cursor.next.2
termination_by cursor.rest.length
decreasing_by exact length_next_lt (by assumption)

end Cursor

/-- The tokens of a source text.  The last one, and only the last one, is the
end of input. -/
def tokenize (source : String) : List Token :=
  (Cursor.start source).tokensAfter []

end Script
