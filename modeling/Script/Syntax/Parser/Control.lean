import Script.Syntax.Parser.Declaration

/-!
# Conditionals, loops and switches
-/

namespace Script.Parser.Grammar

variable (g : Grammar)

/-- An expression in parentheses behind the current token. -/
def condition : Parser Expr := do
  expect .lparen
  let condition ← g.operand
  expect .rparen
  return condition

/-- A block that holds nothing but an expression. -/
def blockOf (e : Expr) : Block :=
  { statements := [.expr e e.loc], loc := e.loc }

/-- What follows `else`: a block, or another `if`, which then is the only
statement of the block. -/
def alternative : Parser Block := do
  if ← nextIs .ifWord then
    advance
    return blockOf (← g.branch)
  else
    g.nextBlock

/-- `if` at the current token. -/
def branchHere : Parser Expr := do
  let start ← here
  let condition ← g.condition
  let consequence ← g.nextBlock
  if ← nextIs .elseWord then
    advance
    let alternative ← g.alternative
    return .branch condition consequence (some alternative) (← spanFrom start)
  else
    return .branch condition consequence none (← spanFrom start)

def whileHere : Parser Expr := do
  let start ← here
  let condition ← g.condition
  let body ← g.nextBlock
  return .whileLoop condition body (← spanFrom start)

/-! ### `for` -/

/-- An expression that is a statement of its own. -/
def expressionStatement : Parser Stmt := do
  let e ← g.expression .lowest
  return .expr e e.loc

/-- The first statement of a counting header, up to its semicolon. -/
def countingStart : Parser (Option Stmt) := do
  match (← current).kind with
  | .semicolon => return none
  | .letWord =>
    let s ← g.binding false
    expect .semicolon
    return some s
  | .constWord =>
    let s ← g.binding true
    expect .semicolon
    return some s
  | _ =>
    let s ← g.expressionStatement
    expect .semicolon
    return some s

/-- An expression behind the current token, unless `stop` comes first. -/
def operandUnless (stop : Token.Kind) : Parser (Option Expr) := do
  if ← nextIs stop then return none else return some (← g.operand)

/-- What stands in the parentheses of a `for` loop, from its first token to the
closing parenthesis. -/
def loopHeader : Parser LoopHeader := do
  let named ← currentIs .ident
  let following ← nextKind
  if named ∧ following = .inWord then
    let item ← nameHere
    advance
    let iterable ← g.operand
    expect .rparen
    return .items item iterable
  else if named ∧ following = .comma then
    let index ← nameHere
    advance
    expect .ident
    let value ← nameHere
    expect .inWord
    let iterable ← g.operand
    expect .rparen
    return .pairs index value iterable
  else
    let start ← g.countingStart
    let condition ← g.operandUnless .semicolon
    expect .semicolon
    let update ← g.operandUnless .rparen
    expect .rparen
    return .counting start condition update

def forHere : Parser Expr := do
  let start ← here
  expect .lparen
  advance
  let header ← g.loopHeader
  let body ← g.nextBlock
  return .forLoop header body (← spanFrom start)

/-! ### `switch` -/

/-- A colon, which may stand in front of the body of a case. -/
def skipColon : Parser Unit := do
  if ← nextIs .colon then advance

/-- `case` at the current token, with its values and its body. -/
def caseHere : Parser Case := do
  let start ← here
  let values ← inCaseValues (commaList g.operand)
  skipColon
  let body ← g.nextBlock
  return { values, body, loc := ← spanFrom start }

/-- `default` at the current token. -/
def defaultHere : Parser Block := do
  skipColon
  g.nextBlock

/-- `switch` at the current token.  Of several defaults the last one counts. -/
def switchHere : Parser Expr := do
  let start ← here
  let subject ← g.condition
  expect .lbrace
  advance
  let (cases, default) ← repeated (fun (cases, default) => do
    match (← current).kind with
    | .rbrace => return .done ((cases : List Case).reverse, default)
    | .caseWord =>
      let c ← g.caseHere
      advance
      return .again (c :: cases, default)
    | .defaultWord =>
      let body ← g.defaultHere
      advance
      return .again (cases, some body)
    | .eof => unexpected "\x7d"
    | _ => unexpected "case") ([], none)
  return .switch subject cases default (← spanFrom start)

end Script.Parser.Grammar
