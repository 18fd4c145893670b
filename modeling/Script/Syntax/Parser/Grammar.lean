import Script.Syntax.Parser.State
import Script.Syntax.Precedence
import Script.Syntax.Tree

/-!
# The recursive parts of the grammar

Productions call one another through a `Grammar`, which holds the productions
that may contain themselves.  So each production is defined on its own, and the
recursion is closed in one place.
-/

namespace Script

namespace Parser

/-- The productions that may contain themselves. -/
structure Grammar where
  expression : Precedence → Parser Expr
  statement : Parser Stmt
  /-- An `if` expression, as it also stands behind `else`. -/
  branch : Parser Expr
  type : Parser TypeExpr

/-- The current token as a name. -/
def nameHere : Parser Name := do
  let t ← current
  return { text := t.text, loc := ← here }

/-- Whether the next token is a comma, which is then taken. -/
def takeComma : Parser Bool := do
  if ← nextIs .comma then
    advance
    return true
  else
    return false

/-- A list whose items are separated by commas; `item` starts at the token in
front of an item. -/
def commaList {α : Type} (item : Parser α) : Parser (List α) :=
  repeated (fun items => do
    let items := (← item) :: items
    if ← takeComma then return .again items else return .done items.reverse) []

namespace Grammar

variable (g : Grammar)

/-- The expression behind the current token. -/
def operand : Parser Expr := do
  advance
  g.expression .lowest

/-- The statements up to the closing brace; the current token is the opening
one.  A statement that fails is left out, and the next one is tried. -/
def block : Parser Block := do
  let start ← here
  advance
  let statements ← repeated (fun statements => do
    match (← current).kind with
    | .rbrace => return .done (statements : List Stmt).reverse
    | .eof => unexpected "\x7d"
    | _ =>
      let statement ← optional g.statement
      advance
      return .again (statement.toList ++ statements)) []
  return { statements, loc := ← spanFrom start }

/-- A block behind the current token. -/
def nextBlock : Parser Block := do
  expect .lbrace
  g.block

end Grammar

end Parser

end Script
