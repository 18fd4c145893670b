import Script.Number.Numeral
import Script.Syntax.Parser.Grammar

/-!
# Types, functions and declarations
-/

namespace Script.Parser

/-- The value of the integer literal at the current token. -/
def integerHere : Parser Int64 := do
  let t ← current
  match Numeral.int64? t.text.toList with
  | some n => return n
  | none => fail (.invalidInteger t.text) (← here)

/-- The integer of an enumeration variant, which may have a minus sign. -/
def signedInteger : Parser Int64 := do
  let negative ← currentIs .minus
  if negative then advance
  if ← currentIs .int then
    let n ← integerHere
    return if negative then -n else n
  else
    unexpected "integer"

namespace Grammar

variable (g : Grammar)

/-! ### Types -/

/-- A type that starts at the current token. -/
def typeHere : Parser TypeExpr := do
  let start ← here
  let t ← current
  if t.kind = .lbracket then
    expect .rbracket
    advance
    let element ← g.type
    return .array element (← spanFrom start)
  else if t.kind = .typeMap ∧ (← nextKind) = .lbracket then
    advance
    advance
    let key ← g.type
    expect .rbracket
    advance
    let value ← g.type
    return .map key value (← spanFrom start)
  else if t.kind = .ident ∨ t.kind.isType then
    return .named t.text start
  else
    unexpected "type"

/-- A type behind a colon, if there is a colon. -/
def typeMark? : Parser (Option TypeExpr) := do
  if ← nextIs .colon then
    advance
    advance
    return some (← g.type)
  else
    return none

/-! ### Functions -/

/-- A parameter with or without a type. -/
def parameter : Parser (Name × Option TypeExpr) := do
  expect .ident
  let name ← nameHere
  return (name, ← g.typeMark?)

/-- If one parameter has a type, those without one accept anything. -/
def settleParams (params : List (Name × Option TypeExpr)) : Params :=
  if params.any (·.2.isSome) then
    .typed (params.map fun (name, type) =>
      { name, type := type.getD (.named "any" name.loc) })
  else
    .plain (params.map (·.1))

/-- Parameters in parentheses; the current token is the opening one. -/
def parameters : Parser Params := do
  if ← nextIs .rparen then
    advance
    return .plain []
  else
    let params ← commaList g.parameter
    expect .rparen
    return settleParams params

/-- A type behind the current token. -/
def nextType : Parser TypeExpr := do
  advance
  g.type

/-- One type or several in parentheses behind an arrow, if there is an
arrow. -/
def returnTypes : Parser (List TypeExpr) := do
  if ← nextIs .arrow then
    advance
    if ← nextIs .lparen then
      advance
      let types ← commaList g.nextType
      expect .rparen
      return types
    else
      return [← g.nextType]
  else
    return []

/-- Parameters, return types and body; the current token is the opening
parenthesis. -/
def functionRest (name : Option String) (start : Location) :
    Parser Function := do
  let params ← g.parameters
  let returns ← g.returnTypes
  let body ← g.nextBlock
  return { name, params, returns, body, loc := ← spanFrom start }

/-! ### Declarations -/

/-- `let` or `const` with a name, an optional type and a value. -/
def binding (constant : Bool) : Parser Stmt := do
  let start ← here
  expect .ident
  let name ← nameHere
  let type ← g.typeMark?
  expect .assign
  let value ← g.operand
  return .bind constant name type value (← spanFrom start)

/-- `define name(...)` binds a name to a function, and
`define Struct.method(...)` adds a method to a struct. -/
def definition : Parser Stmt := do
  let start ← here
  expect .ident
  let first ← nameHere
  if ← nextIs .dot then
    advance
    expect .ident
    let method ← current
    expect .lparen
    let f ← g.functionRest (some method.text) start
    return .method first f (← spanFrom start)
  else
    expect .lparen
    let f ← g.functionRest (some first.text) start
    return .bind false first none (.function f) (← spanFrom start)

/-- `return`, with a value unless the statement ends at once. -/
def returning : Parser Stmt := do
  let start ← here
  match ← nextKind with
  | .semicolon | .rbrace | .eof => return .ret none start
  | _ =>
    let value ← g.operand
    return .ret (some value) (← spanFrom start)

/-- `try` with a block, and perhaps a handler for its errors. -/
def attempt : Parser Attempt := do
  let start ← here
  let body ← g.nextBlock
  if ← nextIs .catchWord then
    advance
    let param ← (do
      if ← nextIs .lparen then
        advance
        expect .ident
        let name ← nameHere
        expect .rparen
        return some name
      else
        return none)
    let handler ← g.nextBlock
    return { body, param, handler := some handler, loc := ← spanFrom start }
  else
    return { body, param := none, handler := none, loc := ← spanFrom start }

end Grammar

/-- The contents of the string behind the current token. -/
def nextString : Parser String := do
  expect .str
  return (← current).text

/-- `include "a"` or `include ("a", "b")`. -/
def inclusion : Parser Stmt := do
  let start ← here
  if ← nextIs .lparen then
    advance
    let modules ← commaList nextString
    expect .rparen
    return .includes modules true (← spanFrom start)
  else
    let module ← nextString
    return .includes [module] false (← spanFrom start)

/-- `struct Name` with its fields; commas and semicolons between them are
optional. -/
def structDeclaration : Parser Stmt := do
  let start ← here
  expect .ident
  let name ← nameHere
  expect .lbrace
  advance
  let fields ← repeated (fun fields => do
    match (← current).kind with
    | .rbrace => return .done (fields : List Name).reverse
    | .ident =>
      let field ← nameHere
      advance
      return .again (field :: fields)
    | .comma | .semicolon =>
      advance
      return .again fields
    | .eof => unexpected "\x7d"
    | _ => unexpected "identifier") []
  return .struct name fields (← spanFrom start)

/-- A variant of an enumeration, with its number if an equals sign follows. -/
def variant : Parser VariantDecl := do
  let name ← nameHere
  if ← nextIs .assign then
    advance
    advance
    return { name, value := some (← signedInteger) }
  else
    return { name, value := none }

/-- `enum Name` with its variants. -/
def enumDeclaration : Parser Stmt := do
  let start ← here
  expect .ident
  let name ← nameHere
  expect .lbrace
  advance
  let variants ← repeated (fun variants => do
    match (← current).kind with
    | .rbrace => return .done (variants : List VariantDecl).reverse
    | .ident =>
      let v ← variant
      advance
      return .again (v :: variants)
    | .comma =>
      advance
      return .again variants
    | .eof => unexpected "\x7d"
    | _ => unexpected "identifier") []
  return .enum name variants (← spanFrom start)

end Script.Parser
