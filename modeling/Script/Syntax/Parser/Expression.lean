import Script.Syntax.Parser.Control

/-!
# Expressions

An expression is an operand and the operators behind it that bind tighter than
what stands in front of it.
-/

namespace Script.Parser

/-- The operator in front of an operand that a token stands for. -/
def prefixOp : Token.Kind → PrefixOp
  | .minus => .minus
  | .increment => .increment
  | .decrement => .decrement
  | _ => .not

/-- The binary operator that a token stands for. -/
def binaryOp? : Token.Kind → Option BinaryOp
  | .plus => some .add
  | .minus => some .sub
  | .asterisk => some .mul
  | .slash => some .div
  | .percent => some .mod
  | .lt => some .lt
  | .gt => some .gt
  | .le => some .le
  | .ge => some .ge
  | .eq => some .eq
  | .notEq => some .ne
  | .and => some .and
  | .or => some .or
  | _ => none

/-- The assignment that a token stands for. -/
def assignOp? : Token.Kind → Option AssignOp
  | .assign => some .assign
  | .plusAssign => some .add
  | .minusAssign => some .sub
  | .starAssign => some .mul
  | .slashAssign => some .div
  | .percentAssign => some .mod
  | _ => none

/-- The literal of a float at the current token. -/
def floatHere : Parser Expr := do
  let t ← current
  let loc ← here
  if (Numeral.float? t.text.toList).isSome then return .float t.text loc
  else fail (.invalidFloat t.text) loc

namespace Grammar

variable (g : Grammar)

/-! ### Operands -/

/-- Expressions separated by commas up to the closing token, in front of which
one more comma may stand. -/
def expressionList (close : Token.Kind) : Parser (List Expr) := do
  if ← nextIs close then
    advance
    return []
  else
    let first ← g.operand
    let items ← repeated (fun items => do
      if ← takeComma then
        if ← nextIs close then return .done (items : List Expr).reverse
        else return .again ((← g.operand) :: items)
      else
        return .done items.reverse) [first]
    expect close
    return items

/-- Items in braces, separated by commas, of which one more may stand at the
end; the current token is the opening brace. -/
def braceList {α : Type} (item : Parser α) : Parser (List α) := do
  let items ← repeated (fun items => do
    if ← nextIs .rbrace then
      return .done (items : List α).reverse
    else
      let x ← item
      if ← nextIs .rbrace then
        return .again (x :: items)
      else
        expect .comma
        return .again (x :: items)) []
  advance
  return items

/-- A field and its value. -/
def field : Parser Field := do
  expect .ident
  let name ← nameHere
  expect .colon
  return { name, value := ← g.operand }

/-- A key and its value. -/
def entry : Parser Entry := do
  let key ← g.operand
  expect .colon
  return { key, value := ← g.operand }

/-- A name, or a struct instantiation if a brace follows.  Inside the values of
a `case` the brace opens the body instead. -/
def nameOrRecord : Parser Expr := do
  let name ← nameHere
  if !(← nextIs .lbrace) || (← insideCase) then
    return .name name
  else
    advance
    let fields ← braceList g.field
    return .record name fields (← spanFrom name.loc)

def mapHere : Parser Expr := do
  let start ← here
  let entries ← braceList g.entry
  return .map entries (← spanFrom start)

def arrayHere : Parser Expr := do
  let start ← here
  let elements ← g.expressionList .rbracket
  return .array elements (← spanFrom start)

/-- An operator in front of its operand. -/
def unaryHere : Parser Expr := do
  let start ← here
  let op := prefixOp (← current).kind
  advance
  let right ← g.expression .unary
  return .unary op right (start.through right.loc)

def spreadHere : Parser Expr := do
  let start ← here
  advance
  let value ← g.expression .unary
  return .spread value (start.through value.loc)

/-- The body of an arrow function; the current token is the arrow. -/
def arrowBody (params : List Name) (start : Location) : Parser Expr := do
  let body ← g.operand
  return .arrow params body (start.through body.loc)

/-- An expression in parentheses, or an arrow function: `()`, `(a)` and
`(a, b)` in front of an arrow are parameters. -/
def groupHere : Parser Expr := do
  let start ← here
  if ← nextIs .rparen then
    advance
    expect .fatArrow
    g.arrowBody [] start
  else
    advance
    let named ← currentIs .ident
    let following ← nextKind
    if named ∧ following = .comma then
      let first ← nameHere
      let others ← repeated (fun names => do
        if ← takeComma then
          expect .ident
          return .again ((← nameHere) :: names)
        else
          return .done (names : List Name).reverse) []
      expect .rparen
      expect .fatArrow
      g.arrowBody (first :: others) start
    else if named ∧ following = .rparen then
      let name ← nameHere
      advance
      if ← nextIs .fatArrow then
        advance
        g.arrowBody [name] start
      else
        return .name name
    else
      let inner ← g.expression .lowest
      expect .rparen
      return inner

/-- `define(...)` or `define name(...)` as an expression. -/
def functionHere : Parser Expr := do
  let start ← here
  let name ← (do
    if ← nextIs .ident then
      advance
      return some (← current).text
    else
      return none)
  expect .lparen
  return .function (← g.functionRest name start)

/-- The operand that starts at the current token. -/
def operandHere : Parser Expr := do
  let t ← current
  let loc ← here
  match t.kind with
  | .ident => g.nameOrRecord
  | .int => return .int (← integerHere) loc
  | .float => floatHere
  | .str => return .str t.text loc
  | .trueWord => return .bool true loc
  | .falseWord => return .bool false loc
  | .bang | .minus | .increment | .decrement => g.unaryHere
  | .lparen => g.groupHere
  | .lbracket => g.arrayHere
  | .lbrace => g.mapHere
  | .ifWord => g.branchHere
  | .whileWord => g.whileHere
  | .forWord => g.forHere
  | .switchWord => g.switchHere
  | .tryWord => return .attempt (← g.attempt)
  | .defineWord => g.functionHere
  | .spread => g.spreadHere
  | .illegal => fail (.illegalCharacter t.text) loc
  | .unterminatedString => fail .unterminatedString loc
  | kind =>
    if kind.isType then return .name (← nameHere)
    else fail (.noExpression t.describe) loc

/-! ### Operators behind an operand -/

/-- A binary operator binds its right operand one rung tighter, so it groups to
the left. -/
def binaryHere (left : Expr) (op : BinaryOp) : Parser Expr := do
  let precedence := Precedence.ofKind (← current).kind
  advance
  let right ← g.expression precedence
  return .binary left op right (left.loc.through right.loc)

/-- Assignments group to the right. -/
def assignHere (target : Expr) (op : AssignOp) : Parser Expr := do
  let value ← g.operand
  return .assign target op value (target.loc.through value.loc)

def rangeHere (start : Expr) : Parser Expr := do
  advance
  let stop ← g.expression .range
  return .range start stop (start.loc.through stop.loc)

def ternaryHere (condition : Expr) : Parser Expr := do
  let consequence ← g.operand
  expect .colon
  let alternative ← g.operand
  return .ternary condition consequence alternative
    (condition.loc.through alternative.loc)

/-- An arrow whose one parameter stands without parentheses. -/
def arrowHere (left : Expr) : Parser Expr :=
  match left with
  | .name param => g.arrowBody [param] param.loc
  | other =>
    fail (.operator "=>" "the left side of `=>` must be a parameter list")
      other.loc

def callHere (callee : Expr) : Parser Expr := do
  let args ← g.expressionList .rparen
  return .call callee args (← spanFrom callee.loc)

/-- The end of a slice, up to the closing bracket; the current token is the
colon. -/
def sliceStop : Parser (Option Expr) := do
  let stop ← g.operandUnless .rbracket
  expect .rbracket
  return stop

/-- An index or a slice; the current token is the opening bracket. -/
def indexHere (left : Expr) : Parser Expr := do
  if ← nextIs .colon then
    advance
    let stop ← g.sliceStop
    return .slice left none stop (← spanFrom left.loc)
  else
    let index ← g.operand
    if ← nextIs .colon then
      advance
      let stop ← g.sliceStop
      return .slice left (some index) stop (← spanFrom left.loc)
    else
      expect .rbracket
      return .index left index (← spanFrom left.loc)

/-- A member; names of types are accepted as names of members. -/
def memberHere (object : Expr) : Parser Expr := do
  let kind ← nextKind
  if kind = .ident ∨ kind.isType then
    advance
    let property ← nameHere
    return .member object property (object.loc.through property.loc)
  else
    failAtNext "identifier"

def stepHere (target : Expr) (op : StepOp) : Parser Expr := do
  return .step op target (← spanFrom target.loc)

/-- The expression that the current token, an operator, makes of the operand in
front of it. -/
def operatorHere (left : Expr) : Parser Expr := do
  let kind := (← current).kind
  match binaryOp? kind, assignOp? kind, kind with
  | some op, _, _ => g.binaryHere left op
  | none, some op, _ => g.assignHere left op
  | none, none, .range => g.rangeHere left
  | none, none, .question => g.ternaryHere left
  | none, none, .fatArrow => g.arrowHere left
  | none, none, .lparen => g.callHere left
  | none, none, .lbracket => g.indexHere left
  | none, none, .dot => memberHere left
  | none, none, .increment => stepHere left .increment
  | none, none, .decrement => stepHere left .decrement
  | _, _, _ => return left

/-- An operand and all operators behind it that bind tighter than
`precedence`. -/
def expressionHere (precedence : Precedence) : Parser Expr := do
  let first ← g.operandHere
  repeated (fun left => do
    let kind ← nextKind
    if kind ≠ .semicolon ∧
        precedence.level < (Precedence.ofKind kind).level then
      advance
      return .again (← g.operatorHere left)
    else
      return .done left) first

end Grammar

end Script.Parser
