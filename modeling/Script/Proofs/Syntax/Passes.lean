import Script.Syntax.Parser

/-!
# Passes of the loops

Every loop of the parser repeats a pass, which is given a name here, and so is the
parameter of a handler.  The equations say in which production each of them stands.
-/

namespace Script

namespace Parser

variable {α : Type}

/-! ### Lists -/

/-- An item, and whether another one follows. -/
def listPass (item : Parser α) (items : List α) : Parser (Pass (List α) (List α)) := do
  let items := (← item) :: items
  if ← takeComma then return .again items else return .done items.reverse

theorem commaList_eq (item : Parser α) :
    commaList item = repeated (listPass item) [] := rfl

/-- An item in braces, unless the closing one comes first. -/
def bracePass (item : Parser α) (items : List α) : Parser (Pass (List α) (List α)) := do
  if ← nextIs .rbrace then
    return .done items.reverse
  else
    let x ← item
    if ← nextIs .rbrace then
      return .again (x :: items)
    else
      expect .comma
      return .again (x :: items)

theorem braceList_eq (item : Parser α) :
    Grammar.braceList item = (do
      let items ← repeated (bracePass item) []
      advance
      return items) := rfl

/-- A field of a struct declaration, or what may stand between two of them. -/
def fieldPass (fields : List Name) : Parser (Pass (List Name) (List Name)) := do
  match (← current).kind with
  | .rbrace => return .done fields.reverse
  | .ident =>
    let field ← nameHere
    advance
    return .again (field :: fields)
  | .comma | .semicolon =>
    advance
    return .again fields
  | .eof => unexpected "\x7d"
  | _ => unexpected "identifier"

theorem structDeclaration_eq :
    structDeclaration = (do
      let start ← here
      expect .ident
      let name ← nameHere
      expect .lbrace
      advance
      let fields ← repeated fieldPass []
      return .struct name fields (← spanFrom start)) := rfl

/-- A variant of an enumeration, or a comma between two of them. -/
def variantPass (variants : List VariantDecl) :
    Parser (Pass (List VariantDecl) (List VariantDecl)) := do
  match (← current).kind with
  | .rbrace => return .done variants.reverse
  | .ident =>
    let v ← variant
    advance
    return .again (v :: variants)
  | .comma =>
    advance
    return .again variants
  | .eof => unexpected "\x7d"
  | _ => unexpected "identifier"

theorem enumDeclaration_eq :
    enumDeclaration = (do
      let start ← here
      expect .ident
      let name ← nameHere
      expect .lbrace
      advance
      let variants ← repeated variantPass []
      return .enum name variants (← spanFrom start)) := rfl

namespace Grammar

variable (g : Grammar)

/-- An expression behind a comma, unless the closing token comes first. -/
def itemPass (close : Token.Kind) (items : List Expr) :
    Parser (Pass (List Expr) (List Expr)) := do
  if ← takeComma then
    if ← nextIs close then return .done items.reverse
    else return .again ((← g.operand) :: items)
  else
    return .done items.reverse

theorem expressionList_eq (close : Token.Kind) :
    g.expressionList close = (do
      if ← nextIs close then
        advance
        return []
      else
        let first ← g.operand
        let items ← repeated (g.itemPass close) [first]
        expect close
        return items) := rfl

/-- A name behind a comma among the parameters of an arrow function. -/
def namePass (names : List Name) : Parser (Pass (List Name) (List Name)) := do
  if ← takeComma then
    expect .ident
    return .again ((← nameHere) :: names)
  else
    return .done names.reverse

theorem groupHere_eq :
    g.groupHere = (do
      let start ← here
      if ← nextIs .rparen then
        advance
        expect .fatArrow
        g.arrowBody [] start
      else
        advance
        let named ← currentIs .ident
        let following ← nextKind
        if named ∧ following = .comma then
          let first ← nameHere
          let others ← repeated namePass []
          expect .rparen
          expect .fatArrow
          g.arrowBody (first :: others) start
        else if named ∧ following = .rparen then
          let name ← nameHere
          advance
          if ← nextIs .fatArrow then
            advance
            g.arrowBody [name] start
          else
            return .name name
        else
          let inner ← g.expression .lowest
          expect .rparen
          return inner) := rfl

/-! ### Operators -/

/-- A pass of the loop over operators. -/
def operatorPass (precedence : Precedence) (left : Expr) :
    Parser (Pass Expr Expr) := do
  let kind ← nextKind
  if kind ≠ .semicolon ∧
      precedence.level < (Precedence.ofKind kind).level then
    advance
    return .again (← g.operatorHere left)
  else
    return .done left

theorem expressionHere_eq (precedence : Precedence) :
    g.expressionHere precedence =
      (g.operandHere >>= fun first =>
        repeated (g.operatorPass precedence) first) := rfl

/-! ### Handlers -/

/-- The parameter of a handler in parentheses, if there is one. -/
def catchParam : Parser (Option Name) := do
  if ← nextIs .lparen then
    advance
    expect .ident
    let name ← nameHere
    expect .rparen
    return some name
  else
    return none

theorem attempt_eq :
    g.attempt = (do
      let start ← here
      let body ← g.nextBlock
      if ← nextIs .catchWord then
        advance
        let param ← catchParam
        let handler ← g.nextBlock
        return { body, param, handler := some handler, loc := ← spanFrom start }
      else
        return { body, param := none, handler := none, loc := ← spanFrom start }) := rfl

/-! ### Statements -/

/-- A statement of a block, unless the closing brace comes first. -/
def blockPass (statements : List Stmt) : Parser (Pass (List Stmt) (List Stmt)) := do
  match (← current).kind with
  | .rbrace => return .done statements.reverse
  | .eof => unexpected "\x7d"
  | _ =>
    let statement ← optional g.statement
    advance
    return .again (statement.toList ++ statements)

theorem block_eq :
    g.block = (do
      let start ← here
      advance
      let statements ← repeated g.blockPass []
      return { statements, loc := ← spanFrom start }) := rfl

/-- A case or a default of a `switch`, unless the closing brace comes first. -/
def casePass (read : List Case × Option Block) :
    Parser (Pass (List Case × Option Block) (List Case × Option Block)) := do
  let (cases, default) := read
  match (← current).kind with
  | .rbrace => return .done (cases.reverse, default)
  | .caseWord =>
    let c ← g.caseHere
    advance
    return .again (c :: cases, default)
  | .defaultWord =>
    let body ← g.defaultHere
    advance
    return .again (cases, some body)
  | .eof => unexpected "\x7d"
  | _ => unexpected "case"

theorem switchHere_eq :
    g.switchHere = (do
      let start ← here
      let subject ← g.condition
      expect .lbrace
      advance
      let (cases, default) ← repeated g.casePass ([], none)
      return .switch subject cases default (← spanFrom start)) := rfl

/-- A statement of a program, unless the input has come to its end. -/
def programPass (statements : List Stmt) : Parser (Pass (List Stmt) (List Stmt)) := do
  if ← currentIs .eof then
    return .done statements.reverse
  else
    let statement ← optional g.statement
    advance
    return .again (statement.toList ++ statements)

end Grammar

theorem program_eq (g : Grammar) :
    program g = (do
      let start ← here
      let statements ← repeated g.programPass []
      return { statements, loc := ← spanFrom start }) := rfl

end Parser

end Script
