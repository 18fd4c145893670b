import Script.Proofs.Syntax.Termination

/-!
# How the parsers are put together

A `Weave` of a parser says of which steps it is made and which productions it calls,
and its type is the parser itself.  What holds of the steps and is kept when they are put
together holds of all parsers, and the calls of a run are read off the weave of the parser
that runs.
-/

namespace Script

namespace Parser

variable {α β σ : Type}

/-- How a parser is put together.  A statement is only ever called by a loop that goes on
if it fails. -/
inductive Weave : {α : Type} → (Grammar → Parser α) → Type 1 where
  | look {α : Type} (f : State → α) : Weave fun _ s => .ok (f s) s
  | advance : Weave fun _ => Parser.advance
  | fail {α : Type} (problem : State → Problem) (loc : State → Location) :
      Weave fun _ s => (Parser.fail (problem s) (loc s) s : Outcome α)
  | bind {α β : Type} {p : Grammar → Parser α} {f : α → Grammar → Parser β}
      (first : Weave p) (next : ∀ a, Weave (f a)) : Weave fun g => p g >>= fun a => f a g
  | ite {α : Type} (c : Prop) [Decidable c] {p q : Grammar → Parser α} (yes : Weave p)
      (no : Weave q) : Weave fun g => if c then p g else q g
  | repeated {σ β : Type} {body : σ → Grammar → Parser (Pass σ β)}
      (pass : ∀ state, Weave (body state)) (state : σ) :
      Weave fun g => Parser.repeated (fun state => body state g) state
  | inCaseValues {α : Type} {p : Grammar → Parser α} (w : Weave p) :
      Weave fun g => Parser.inCaseValues (p g)
  | statement : Weave fun g => optional g.statement
  | expression (precedence : Precedence) : Weave fun g => g.expression precedence
  | branch : Weave fun g => g.branch
  | type : Weave fun g => g.type
  | call {α : Type} {p : Grammar → Parser α} (h : ∀ g, Production g (p g)) (w : Weave p) :
      Weave p

/-- The statement that a token of this kind starts, without its semicolon. -/
def Grammar.statementOf (g : Grammar) : Token.Kind → Parser Stmt
  | .letWord => g.binding false
  | .constWord => g.binding true
  | .returnWord => g.returning
  | .includeWord => inclusion
  | .tryWord => do return .attempt (← g.attempt)
  | .structWord => structDeclaration
  | .enumWord => enumDeclaration
  | .breakWord => do return .brk (← here)
  | .continueWord => do return .cont (← here)
  | .semicolon => giveUp
  | .defineWord => do
    if ← nextIs .lparen then g.expressionStatement else g.definition
  | _ => g.expressionStatement

/-- What a statement reads depends on the kind of its first token only. -/
theorem Grammar.statementBody_eq (g : Grammar) (s : State) :
    g.statementBody s = g.statementOf s.current.kind s := rfl

/-- The same with the semicolon behind it. -/
def Grammar.statementFrom (g : Grammar) (kind : Token.Kind) : Parser Stmt := do
  let statement ← g.statementOf kind
  if ← nextIs .semicolon then advance
  return statement

/-- The same for the semicolon that it may take with it. -/
theorem Grammar.statementHere_eq (g : Grammar) (s : State) :
    g.statementHere s = g.statementFrom s.current.kind s := rfl

namespace Weave

/-! ### Steps -/

/-- A result alone looks at nothing. -/
def pure (a : α) : Weave fun _ => (Pure.pure a : Parser α) := .look fun _ => a

/-- Whatever only asks about the state is a look at it. -/
def current : Weave fun _ => Parser.current := .look fun s => s.current

def here : Weave fun _ => Parser.here := .look fun s => locationOf s s.current

def spanFrom (start : Location) : Weave fun _ => Parser.spanFrom start :=
  .look fun s => start.through (locationOf s s.current)

def currentIs (kind : Token.Kind) : Weave fun _ => Parser.currentIs kind :=
  .look fun s => s.current.kind == kind

def nextIs (kind : Token.Kind) : Weave fun _ => Parser.nextIs kind :=
  .look fun s => s.next.kind == kind

def nextKind : Weave fun _ => Parser.nextKind := .look fun s => s.next.kind

def insideCase : Weave fun _ => Parser.insideCase := .look fun s => s.inCase

/-- A name is read with its location, in two looks. -/
def nameHere : Weave fun _ => Parser.nameHere :=
  .bind .current fun _ => .bind .here fun _ => .pure _

/-- An error at the current token, with the text of that token. -/
def unexpected (expected : String) :
    Weave fun _ => (Parser.unexpected expected : Parser α) :=
  .bind .current fun _ => .bind .here fun _ => .fail _ _

/-- An error at the token behind the current one, which was looked at but not taken. -/
def failAtNext (expected : String) :
    Weave fun _ => (Parser.failAtNext expected : Parser α) :=
  .fail (fun s => nextProblem expected s.next) fun s => locationOf s s.next

/-- A token that has to be there is taken, or reported where it is missing. -/
def expect (kind : Token.Kind) : Weave fun _ => Parser.expect kind :=
  .bind (.nextIs kind) fun _ => .ite _ .advance (.failAtNext _)

/-- A comma is taken if it is there, and the answer says so. -/
def takeComma : Weave fun _ => Parser.takeComma :=
  .bind (.nextIs .comma) fun _ => .ite _ (.bind .advance fun _ => .pure _) (.pure _)

/-! ### Lists -/

section

variable {item : Grammar → Parser α} (w : Weave item)

/-- An item, and whether another one follows. -/
def listPass (items : List α) : Weave fun g => Parser.listPass (item g) items :=
  .bind w fun _ => .bind .takeComma fun _ => .ite _ (.pure _) (.pure _)

/-- The passes go on as long as there are commas. -/
def commaList : Weave fun g => Parser.commaList (item g) := .repeated w.listPass []

/-- The closing brace is looked for in front of an item and behind it. -/
def bracePass (items : List α) : Weave fun g => Parser.bracePass (item g) items :=
  .bind (.nextIs .rbrace) fun _ => .ite _ (.pure _) <|
    .bind w fun _ => .bind (.nextIs .rbrace) fun _ => .ite _ (.pure _) <|
      .bind (.expect .comma) fun _ => .pure _

/-- The brace behind the items is taken without another look. -/
def braceList : Weave fun g => Grammar.braceList (item g) :=
  .bind (.repeated w.bracePass []) fun _ => .bind .advance fun _ => .pure _

end

/-! ### Operands and blocks -/

/-- An expression behind the current token. -/
def operand : Weave fun g => g.operand :=
  .call (fun _ => .operand) <| .bind .advance fun _ => .expression .lowest

/-- Only a look decides whether there is an operand at all. -/
def operandUnless (stop : Token.Kind) : Weave fun g => g.operandUnless stop :=
  .call (fun _ => .operandUnless stop) <|
    .bind (.nextIs stop) fun _ => .ite _ (.pure _) <| .bind .operand fun _ => .pure _

/-- The closing token behind a comma ends the list without another item. -/
def itemPass (close : Token.Kind) (items : List Expr) :
    Weave fun g => g.itemPass close items :=
  .bind .takeComma fun _ =>
    .ite _
      (.bind (.nextIs close) fun _ => .ite _ (.pure _) <| .bind .operand fun _ => .pure _)
      (.pure _)

def expressionList (close : Token.Kind) : Weave fun g => g.expressionList close :=
  .call (fun _ => .expressionList close) <|
    .bind (.nextIs close) fun _ =>
      .ite _ (.bind .advance fun _ => .pure _) <|
        .bind .operand fun _ => .bind (.repeated (.itemPass close) _) fun _ =>
          .bind (.expect close) fun _ => .pure _

/-- The one place inside a block that calls for a statement. -/
def blockPass (statements : List Stmt) : Weave fun g => g.blockPass statements :=
  .bind .current fun t => by
    generalize t.kind = kind
    cases kind
    case rbrace => exact .pure _
    case eof => exact .unexpected _
    all_goals exact .bind .statement fun _ => .bind .advance fun _ => .pure _

/-- The statements of a block come out of a loop, and so do those that fail. -/
def block : Weave fun g => g.block :=
  .call (fun _ => .block) <|
    .bind .here fun _ => .bind .advance fun _ => .bind (.repeated .blockPass []) fun _ =>
      .bind (.spanFrom _) fun _ => .pure _

def nextBlock : Weave fun g => g.nextBlock :=
  .call (fun _ => .nextBlock) <| .bind (.expect .lbrace) fun _ => .block

/-! ### Types and functions -/

/-- Whether the number fits is a question to its text, so the cases are those of the
answer. -/
def integerHere : Weave fun _ => Parser.integerHere :=
  .call (fun _ => .integerHere) <|
    .bind .current fun t => by
      generalize Numeral.int64? t.text.toList = n?
      cases n? with
      | some n => exact .pure n
      | none => exact .bind .here fun _ => .fail _ _

/-- The digits are read in the same way behind the sign and without it. -/
def signedInteger : Weave fun _ => Parser.signedInteger :=
  .call (fun _ => .signedInteger) <|
    .bind (.currentIs .minus) fun _ => .ite _
      (.bind .advance fun _ => .bind (.currentIs .int) fun _ =>
        .ite _ (.bind .integerHere fun _ => .pure _) (.unexpected _))
      (.bind (.currentIs .int) fun _ =>
        .ite _ (.bind .integerHere fun _ => .pure _) (.unexpected _))

/-- Types call for types behind a bracket only. -/
def typeHere : Weave fun g => g.typeHere :=
  .call (fun _ => .typeHere) <|
    .bind .here fun _ => .bind .current fun _ =>
      .ite _
        (.bind (.expect .rbracket) fun _ => .bind .advance fun _ => .bind .type fun _ =>
          .bind (.spanFrom _) fun _ => .pure _) <|
      .bind .nextKind fun _ => .ite _
        (.bind .advance fun _ => .bind .advance fun _ => .bind .type fun _ =>
          .bind (.expect .rbracket) fun _ => .bind .advance fun _ => .bind .type fun _ =>
          .bind (.spanFrom _) fun _ => .pure _) <|
      .ite _ (.pure _) (.unexpected _)

/-- A type behind a colon, or nothing. -/
def typeMark? : Weave fun g => g.typeMark? :=
  .call (fun _ => .typeMark?) <|
    .bind (.nextIs .colon) fun _ => .ite _
      (.bind .advance fun _ => .bind .advance fun _ => .bind .type fun _ => .pure _)
      (.pure _)

def nextType : Weave fun g => g.nextType :=
  .call (fun _ => .nextType) <| .bind .advance fun _ => .type

def parameter : Weave fun g => g.parameter :=
  .call (fun _ => .parameter) <|
    .bind (.expect .ident) fun _ => .bind .nameHere fun _ => .bind .typeMark? fun _ =>
      .pure _

/-- An empty list is recognised by its parenthesis. -/
def parameters : Weave fun g => g.parameters :=
  .call (fun _ => .parameters) <|
    .bind (.nextIs .rparen) fun _ => .ite _ (.bind .advance fun _ => .pure _) <|
      .bind parameter.commaList fun _ => .bind (.expect .rparen) fun _ => .pure _

def returnTypes : Weave fun g => g.returnTypes :=
  .call (fun _ => .returnTypes) <|
    .bind (.nextIs .arrow) fun _ => .ite _
      (.bind .advance fun _ => .bind (.nextIs .lparen) fun _ => .ite _
        (.bind .advance fun _ => .bind nextType.commaList fun _ =>
          .bind (.expect .rparen) fun _ => .pure _)
        (.bind .nextType fun _ => .pure _))
      (.pure _)

/-- Parameters, return types and body, in this order for all kinds of functions. -/
def functionRest (name : Option String) (start : Location) :
    Weave fun g => g.functionRest name start :=
  .call (fun _ => .functionRest name start) <|
    .bind .parameters fun _ => .bind .returnTypes fun _ => .bind .nextBlock fun _ =>
      .bind (.spanFrom _) fun _ => .pure _

/-! ### Declarations -/

def binding (constant : Bool) : Weave fun g => g.binding constant :=
  .call (fun _ => .binding constant) <|
    .bind .here fun _ => .bind (.expect .ident) fun _ => .bind .nameHere fun _ =>
      .bind .typeMark? fun _ => .bind (.expect .assign) fun _ => .bind .operand fun _ =>
      .bind (.spanFrom _) fun _ => .pure _

/-- A dot behind the first name makes it the name of a struct. -/
def definition : Weave fun g => g.definition :=
  .call (fun _ => .definition) <|
    .bind .here fun _ => .bind (.expect .ident) fun _ => .bind .nameHere fun _ =>
      .bind (.nextIs .dot) fun _ => .ite _
        (.bind .advance fun _ => .bind (.expect .ident) fun _ => .bind .current fun _ =>
          .bind (.expect .lparen) fun _ => .bind (.functionRest _ _) fun _ =>
          .bind (.spanFrom _) fun _ => .pure _)
        (.bind (.expect .lparen) fun _ => .bind (.functionRest _ _) fun _ =>
          .bind (.spanFrom _) fun _ => .pure _)

/-- Three kinds of tokens end the statement without a value. -/
def returning : Weave fun g => g.returning :=
  .call (fun _ => .returning) <|
    .bind .here fun _ => .bind .nextKind fun kind => by
      cases kind
      case semicolon => exact .pure _
      case rbrace => exact .pure _
      case eof => exact .pure _
      all_goals exact .bind .operand fun _ => .bind (.spanFrom _) fun _ => .pure _

def catchParam : Weave fun _ => Grammar.catchParam :=
  .bind (.nextIs .lparen) fun _ => .ite _
    (.bind .advance fun _ => .bind (.expect .ident) fun _ => .bind .nameHere fun _ =>
      .bind (.expect .rparen) fun _ => .pure _)
    (.pure _)

/-- The handler is optional, and only its own block makes it complete. -/
def attempt : Weave fun g => g.attempt :=
  .call (fun _ => .attempt) <|
    .bind .here fun _ => .bind .nextBlock fun _ => .bind (.nextIs .catchWord) fun _ =>
      .ite _
        (.bind .advance fun _ => .bind catchParam fun _ =>
          .bind .nextBlock fun _ => .bind (.spanFrom _) fun _ => .pure _)
        (.bind (.spanFrom _) fun _ => .pure _)

def nextString : Weave fun _ => Parser.nextString :=
  .call (fun _ => .nextString) <|
    .bind (.expect .str) fun _ => .bind .current fun _ => .pure _

/-- Modules in parentheses, or one without. -/
def inclusion : Weave fun _ => Parser.inclusion :=
  .call (fun _ => .inclusion) <|
    .bind .here fun _ => .bind (.nextIs .lparen) fun _ => .ite _
      (.bind .advance fun _ => .bind nextString.commaList fun _ =>
        .bind (.expect .rparen) fun _ => .bind (.spanFrom _) fun _ => .pure _)
      (.bind .nextString fun _ => .bind (.spanFrom _) fun _ => .pure _)

/-- Commas and semicolons between fields are passes of their own. -/
def fieldPass (fields : List Name) : Weave fun _ => Parser.fieldPass fields :=
  .bind .current fun t => by
    generalize t.kind = kind
    cases kind
    case rbrace => exact .pure _
    case ident => exact .bind .nameHere fun _ => .bind .advance fun _ => .pure _
    case comma => exact .bind .advance fun _ => .pure _
    case semicolon => exact .bind .advance fun _ => .pure _
    all_goals exact .unexpected _

def structDeclaration : Weave fun _ => Parser.structDeclaration :=
  .call (fun _ => .structDeclaration) <|
    .bind .here fun _ => .bind (.expect .ident) fun _ => .bind .nameHere fun _ =>
      .bind (.expect .lbrace) fun _ => .bind .advance fun _ =>
      .bind (.repeated .fieldPass []) fun _ => .bind (.spanFrom _) fun _ => .pure _

def variant : Weave fun _ => Parser.variant :=
  .call (fun _ => .variant) <|
    .bind .nameHere fun _ => .bind (.nextIs .assign) fun _ => .ite _
      (.bind .advance fun _ => .bind .advance fun _ => .bind .signedInteger fun _ =>
        .pure _)
      (.pure _)

/-- A variant is read only where its name has been seen. -/
def variantPass (variants : List VariantDecl) :
    Weave fun _ => Parser.variantPass variants :=
  .bind .current fun t => by
    generalize t.kind = kind
    cases kind
    case rbrace => exact .pure _
    case ident => exact .bind .variant fun _ => .bind .advance fun _ => .pure _
    case comma => exact .bind .advance fun _ => .pure _
    all_goals exact .unexpected _

def enumDeclaration : Weave fun _ => Parser.enumDeclaration :=
  .call (fun _ => .enumDeclaration) <|
    .bind .here fun _ => .bind (.expect .ident) fun _ => .bind .nameHere fun _ =>
      .bind (.expect .lbrace) fun _ => .bind .advance fun _ =>
      .bind (.repeated .variantPass []) fun _ => .bind (.spanFrom _) fun _ => .pure _

/-! ### Conditionals, loops and switches -/

def condition : Weave fun g => g.condition :=
  .call (fun _ => .condition) <|
    .bind (.expect .lparen) fun _ => .bind .operand fun _ =>
      .bind (.expect .rparen) fun _ => .pure _

/-- Behind `else` there is another branch or a block. -/
def alternative : Weave fun g => g.alternative :=
  .call (fun _ => .alternative) <|
    .bind (.nextIs .ifWord) fun _ => .ite _
      (.bind .advance fun _ => .bind .branch fun _ => .pure _) .nextBlock

def branchHere : Weave fun g => g.branchHere :=
  .call (fun _ => .branchHere) <|
    .bind .here fun _ => .bind .condition fun _ => .bind .nextBlock fun _ =>
      .bind (.nextIs .elseWord) fun _ => .ite _
        (.bind .advance fun _ => .bind .alternative fun _ => .bind (.spanFrom _) fun _ =>
          .pure _)
        (.bind (.spanFrom _) fun _ => .pure _)

def whileHere : Weave fun g => g.whileHere :=
  .call (fun _ => .whileHere) <|
    .bind .here fun _ => .bind .condition fun _ => .bind .nextBlock fun _ =>
      .bind (.spanFrom _) fun _ => .pure _

def expressionStatement : Weave fun g => g.expressionStatement :=
  .call (fun _ => .expressionStatement) <| .bind (.expression .lowest) fun _ => .pure _

/-- The first part of a counting loop takes its own semicolon. -/
def countingStart : Weave fun g => g.countingStart :=
  .call (fun _ => .countingStart) <|
    .bind .current fun t => by
      generalize t.kind = kind
      cases kind
      case semicolon => exact .pure _
      case letWord =>
        exact .bind (.binding _) fun _ => .bind (.expect .semicolon) fun _ => .pure _
      case constWord =>
        exact .bind (.binding _) fun _ => .bind (.expect .semicolon) fun _ => .pure _
      all_goals
        exact .bind .expressionStatement fun _ => .bind (.expect .semicolon) fun _ => .pure _

/-- Which loop it is shows in the token behind the first name. -/
def loopHeader : Weave fun g => g.loopHeader :=
  .call (fun _ => .loopHeader) <|
    .bind (.currentIs .ident) fun _ => .bind .nextKind fun _ => .ite _
      (.bind .nameHere fun _ => .bind .advance fun _ => .bind .operand fun _ =>
        .bind (.expect .rparen) fun _ => .pure _) <|
      .ite _
        (.bind .nameHere fun _ => .bind .advance fun _ => .bind (.expect .ident) fun _ =>
          .bind .nameHere fun _ => .bind (.expect .inWord) fun _ => .bind .operand fun _ =>
          .bind (.expect .rparen) fun _ => .pure _)
        (.bind .countingStart fun _ => .bind (.operandUnless _) fun _ =>
          .bind (.expect .semicolon) fun _ => .bind (.operandUnless _) fun _ =>
          .bind (.expect .rparen) fun _ => .pure _)

def forHere : Weave fun g => g.forHere :=
  .call (fun _ => .forHere) <|
    .bind .here fun _ => .bind (.expect .lparen) fun _ => .bind .advance fun _ =>
      .bind .loopHeader fun _ => .bind .nextBlock fun _ => .bind (.spanFrom _) fun _ =>
      .pure _

def skipColon : Weave fun _ => Grammar.skipColon :=
  .call (fun _ => .skipColon) <|
    .bind (.nextIs .colon) fun _ => .ite _ .advance (.pure _)

/-- The values of a case are the only part that is read with the flag set. -/
def caseHere : Weave fun g => g.caseHere :=
  .call (fun _ => .caseHere) <|
    .bind .here fun _ => .bind (.inCaseValues operand.commaList) fun _ =>
      .bind .skipColon fun _ => .bind .nextBlock fun _ => .bind (.spanFrom _) fun _ =>
      .pure _

def defaultHere : Weave fun g => g.defaultHere :=
  .call (fun _ => .defaultHere) <| .bind .skipColon fun _ => .nextBlock

/-- A pass reads a case or the default. -/
def casePass (read : List Case × Option Block) : Weave fun g => g.casePass read :=
  .bind .current fun t => by
    generalize t.kind = kind
    cases kind
    case rbrace => exact .pure _
    case caseWord => exact .bind .caseHere fun _ => .bind .advance fun _ => .pure _
    case defaultWord => exact .bind .defaultHere fun _ => .bind .advance fun _ => .pure _
    all_goals exact .unexpected _

def switchHere : Weave fun g => g.switchHere :=
  .call (fun _ => .switchHere) <|
    .bind .here fun _ => .bind .condition fun _ => .bind (.expect .lbrace) fun _ =>
      .bind .advance fun _ => .bind (.repeated .casePass _) fun _ =>
      .bind (.spanFrom _) fun _ => .pure _

/-! ### Operands -/

def floatHere : Weave fun _ => Parser.floatHere :=
  .call (fun _ => .floatHere) <|
    .bind .current fun _ => .bind .here fun _ => .ite _ (.pure _) (.fail _ _)

def field : Weave fun g => g.field :=
  .call (fun _ => .field) <|
    .bind (.expect .ident) fun _ => .bind .nameHere fun _ =>
      .bind (.expect .colon) fun _ => .bind .operand fun _ => .pure _

def entry : Weave fun g => g.entry :=
  .call (fun _ => .entry) <|
    .bind .operand fun _ => .bind (.expect .colon) fun _ => .bind .operand fun _ => .pure _

/-- The flag that the values of a case set is looked at here and nowhere else. -/
def nameOrRecord : Weave fun g => g.nameOrRecord :=
  .call (fun _ => .nameOrRecord) <|
    .bind .nameHere fun _ => .bind (.nextIs .lbrace) fun _ => .bind .insideCase fun _ =>
      .ite _ (.pure _) <|
        .bind .advance fun _ => .bind field.braceList fun _ => .bind (.spanFrom _) fun _ =>
          .pure _

def mapHere : Weave fun g => g.mapHere :=
  .call (fun _ => .mapHere) <|
    .bind .here fun _ => .bind entry.braceList fun _ => .bind (.spanFrom _) fun _ => .pure _

def arrayHere : Weave fun g => g.arrayHere :=
  .call (fun _ => .arrayHere) <|
    .bind .here fun _ => .bind (.expressionList _) fun _ => .bind (.spanFrom _) fun _ =>
      .pure _

/-- The operand of an operator binds as tight as the operator does. -/
def unaryHere : Weave fun g => g.unaryHere :=
  .call (fun _ => .unaryHere) <|
    .bind .here fun _ => .bind .current fun _ => .bind .advance fun _ =>
      .bind (.expression .unary) fun _ => .pure _

def spreadHere : Weave fun g => g.spreadHere :=
  .call (fun _ => .spreadHere) <|
    .bind .here fun _ => .bind .advance fun _ => .bind (.expression .unary) fun _ => .pure _

/-- The body of an arrow function is an operand behind the arrow. -/
def arrowBody (params : List Name) (start : Location) :
    Weave fun g => g.arrowBody params start :=
  .call (fun _ => .arrowBody params start) <| .bind .operand fun _ => .pure _

def namePass (names : List Name) : Weave fun _ => Grammar.namePass names :=
  .bind .takeComma fun _ => .ite _
    (.bind (.expect .ident) fun _ => .bind .nameHere fun _ => .pure _) (.pure _)

/-- Four forms start with a parenthesis, and looks at the next tokens tell them apart.
-/
def groupHere : Weave fun g => g.groupHere :=
  .call (fun _ => .groupHere) <|
    .bind .here fun _ => .bind (.nextIs .rparen) fun _ => .ite _
      (.bind .advance fun _ => .bind (.expect .fatArrow) fun _ => .arrowBody _ _) <|
      .bind .advance fun _ => .bind (.currentIs .ident) fun _ => .bind .nextKind fun _ =>
      .ite _
        (.bind .nameHere fun _ => .bind (.repeated .namePass []) fun _ =>
          .bind (.expect .rparen) fun _ => .bind (.expect .fatArrow) fun _ =>
          .arrowBody _ _) <|
      .ite _
        (.bind .nameHere fun _ => .bind .advance fun _ => .bind (.nextIs .fatArrow) fun _ =>
          .ite _ (.bind .advance fun _ => .arrowBody _ _) (.pure _))
        (.bind (.expression .lowest) fun _ => .bind (.expect .rparen) fun _ => .pure _)

/-- The name of a function expression may be missing. -/
def functionHere : Weave fun g => g.functionHere :=
  .call (fun _ => .functionHere) <|
    .bind .here fun _ =>
      .bind (.bind (.nextIs .ident) fun _ => .ite _
        (.bind .advance fun _ => .bind .current fun _ => .pure _) (.pure _)) fun _ =>
      .bind (.expect .lparen) fun _ => .bind (.functionRest _ _) fun _ => .pure _

/-- The kind of the current token decides, so the cases are those of the kinds. -/
def operandHere : Weave fun g => g.operandHere :=
  .call (fun _ => .operandHere) <|
    .bind .current fun t => .bind .here fun _ => by
      generalize t.kind = kind
      cases kind
      case ident => exact .nameOrRecord
      case int => exact .bind .integerHere fun _ => .pure _
      case float => exact .floatHere
      case str => exact .pure _
      case trueWord => exact .pure _
      case falseWord => exact .pure _
      case bang => exact .unaryHere
      case minus => exact .unaryHere
      case increment => exact .unaryHere
      case decrement => exact .unaryHere
      case lparen => exact .groupHere
      case lbracket => exact .arrayHere
      case lbrace => exact .mapHere
      case ifWord => exact .branchHere
      case whileWord => exact .whileHere
      case forWord => exact .forHere
      case switchWord => exact .switchHere
      case tryWord => exact .bind .attempt fun _ => .pure _
      case defineWord => exact .functionHere
      case spread => exact .spreadHere
      case illegal => exact .fail _ _
      case unterminatedString => exact .fail _ _
      all_goals exact .ite _ (.bind .nameHere fun _ => .pure _) (.fail _ _)

/-! ### Operators -/

/-- The right side is read at the precedence of the operator. -/
def binaryHere (left : Expr) (op : BinaryOp) : Weave fun g => g.binaryHere left op :=
  .call (fun _ => .binaryHere left op) <|
    .bind .current fun _ => .bind .advance fun _ => .bind (.expression _) fun _ => .pure _

def assignHere (target : Expr) (op : AssignOp) : Weave fun g => g.assignHere target op :=
  .call (fun _ => .assignHere target op) <| .bind .operand fun _ => .pure _

def rangeHere (start : Expr) : Weave fun g => g.rangeHere start :=
  .call (fun _ => .rangeHere start) <|
    .bind .advance fun _ => .bind (.expression .range) fun _ => .pure _

/-- Both branches are operands, with a colon between them. -/
def ternaryHere (condition : Expr) : Weave fun g => g.ternaryHere condition :=
  .call (fun _ => .ternaryHere condition) <|
    .bind .operand fun _ => .bind (.expect .colon) fun _ => .bind .operand fun _ => .pure _

/-- An operand in front of an arrow has to be a name. -/
def arrowHere (left : Expr) : Weave fun g => g.arrowHere left :=
  .call (fun _ => .arrowHere left) <| by
    cases left
    case name param => exact .arrowBody _ _
    all_goals exact .fail _ _

def callHere (callee : Expr) : Weave fun g => g.callHere callee :=
  .call (fun _ => .callHere callee) <|
    .bind (.expressionList _) fun _ => .bind (.spanFrom _) fun _ => .pure _

def sliceStop : Weave fun g => g.sliceStop :=
  .call (fun _ => .sliceStop) <|
    .bind (.operandUnless _) fun _ => .bind (.expect .rbracket) fun _ => .pure _

/-- A colon at either place makes it a slice. -/
def indexHere (left : Expr) : Weave fun g => g.indexHere left :=
  .call (fun _ => .indexHere left) <|
    .bind (.nextIs .colon) fun _ => .ite _
      (.bind .advance fun _ => .bind .sliceStop fun _ => .bind (.spanFrom _) fun _ =>
        .pure _)
      (.bind .operand fun _ => .bind (.nextIs .colon) fun _ => .ite _
        (.bind .advance fun _ => .bind .sliceStop fun _ => .bind (.spanFrom _) fun _ =>
          .pure _)
        (.bind (.expect .rbracket) fun _ => .bind (.spanFrom _) fun _ => .pure _))

def memberHere (object : Expr) : Weave fun _ => Grammar.memberHere object :=
  .call (fun _ => .memberHere object) <|
    .bind .nextKind fun _ => .ite _
      (.bind .advance fun _ => .bind .nameHere fun _ => .pure _) (.failAtNext _)

def stepHere (target : Expr) (op : StepOp) : Weave fun _ => Grammar.stepHere target op :=
  .call (fun _ => .stepHere target op) <| .bind (.spanFrom _) fun _ => .pure _

/-- What does not operate gives the operand back. -/
def operatorHere (left : Expr) : Weave fun g => g.operatorHere left :=
  .call (fun _ => .operatorHere left) <|
    .bind .current fun t => by
      generalize t.kind = kind
      cases kind
      case range => exact .rangeHere left
      case question => exact .ternaryHere left
      case fatArrow => exact .arrowHere left
      case lparen => exact .callHere left
      case lbracket => exact .indexHere left
      case dot => exact .memberHere left
      case increment => exact .stepHere left .increment
      case decrement => exact .stepHere left .decrement
      all_goals first
        | exact .pure left
        | exact .binaryHere left _
        | exact .assignHere left _

/-- An operator is taken only if it binds tighter than what is around it. -/
def operatorPass (precedence : Precedence) (left : Expr) :
    Weave fun g => g.operatorPass precedence left :=
  .bind .nextKind fun _ => .ite _
    (.bind .advance fun _ => .bind (.operatorHere left) fun _ => .pure _) (.pure _)

/-- An operand, and passes for the operators behind it. -/
def expressionHere (precedence : Precedence) :
    Weave fun g => g.expressionHere precedence :=
  .call (fun _ => .expressionHere precedence) <|
    .bind .operandHere fun first => .repeated (.operatorPass precedence) first

/-! ### Statements -/

/-- A semicolon alone is left out: it is the one thing that fails without a report. -/
def statementOf (kind : Token.Kind) (hkind : kind ≠ .semicolon) :
    Weave fun g => g.statementOf kind := by
  cases kind
  case semicolon => exact absurd rfl hkind
  case letWord => exact .binding false
  case constWord => exact .binding true
  case returnWord => exact .returning
  case includeWord => exact .inclusion
  case tryWord => exact .bind .attempt fun _ => .pure _
  case structWord => exact .structDeclaration
  case enumWord => exact .enumDeclaration
  case breakWord => exact .bind .here fun _ => .pure _
  case continueWord => exact .bind .here fun _ => .pure _
  case defineWord =>
    exact .bind (.nextIs .lparen) fun _ => .ite _ .expressionStatement .definition
  all_goals exact .expressionStatement

/-- The semicolon behind a statement belongs to it. -/
def statementFrom (kind : Token.Kind) (hkind : kind ≠ .semicolon) :
    Weave fun g => g.statementFrom kind :=
  .bind (.statementOf kind hkind) fun _ => .bind (.nextIs .semicolon) fun _ =>
    .ite _ (.bind .advance fun _ => .pure _) (.pure _)

/-- The one place of a program that calls for a statement. -/
def programPass (statements : List Stmt) : Weave fun g => g.programPass statements :=
  .bind (.currentIs .eof) fun _ => .ite _ (.pure _) <|
    .bind .statement fun _ => .bind .advance fun _ => .pure _

def program : Weave Parser.program :=
  .call (fun _ => .program) <|
    .bind .here fun _ => .bind (.repeated .programPass []) fun _ =>
      .bind (.spanFrom _) fun _ => .pure _

end Weave

/-! ### Productions -/

/-- The productions that read a statement at the current token. -/
inductive ReadsStatement (g : Grammar) : {α : Type} → Parser α → Prop where
  | statement : ReadsStatement g g.statement
  | statementHere : ReadsStatement g g.statementHere
  | statementBody : ReadsStatement g g.statementBody

/-- All other productions are woven. -/
theorem Production.readsStatement_or_woven {g : Grammar} {p : Parser α}
    (h : Production g p) :
    ReadsStatement g p ∨ ∃ p' : Grammar → Parser α, Nonempty (Weave p') ∧ p' g = p := by
  have of_weave : ∀ {p' : Grammar → Parser α}, Weave p' → ReadsStatement g (p' g) ∨
      ∃ p'' : Grammar → Parser α, Nonempty (Weave p'') ∧ p'' g = p' g :=
    fun w => Or.inr ⟨_, ⟨w⟩, rfl⟩
  cases h with
  | statement => exact Or.inl .statement
  | statementHere => exact Or.inl .statementHere
  | statementBody => exact Or.inl .statementBody
  | program => exact of_weave .program
  | expressionStatement => exact of_weave .expressionStatement
  | block => exact of_weave .block
  | nextBlock => exact of_weave .nextBlock
  | binding constant => exact of_weave (.binding constant)
  | definition => exact of_weave .definition
  | returning => exact of_weave .returning
  | attempt => exact of_weave .attempt
  | inclusion => exact of_weave .inclusion
  | nextString => exact of_weave .nextString
  | structDeclaration => exact of_weave .structDeclaration
  | enumDeclaration => exact of_weave .enumDeclaration
  | variant => exact of_weave .variant
  | signedInteger => exact of_weave .signedInteger
  | integerHere => exact of_weave .integerHere
  | type => exact of_weave .type
  | typeHere => exact of_weave .typeHere
  | typeMark? => exact of_weave .typeMark?
  | nextType => exact of_weave .nextType
  | parameter => exact of_weave .parameter
  | parameters => exact of_weave .parameters
  | returnTypes => exact of_weave .returnTypes
  | functionRest name start => exact of_weave (.functionRest name start)
  | branch => exact of_weave .branch
  | branchHere => exact of_weave .branchHere
  | alternative => exact of_weave .alternative
  | condition => exact of_weave .condition
  | whileHere => exact of_weave .whileHere
  | forHere => exact of_weave .forHere
  | loopHeader => exact of_weave .loopHeader
  | countingStart => exact of_weave .countingStart
  | operandUnless stop => exact of_weave (.operandUnless stop)
  | switchHere => exact of_weave .switchHere
  | caseHere => exact of_weave .caseHere
  | defaultHere => exact of_weave .defaultHere
  | skipColon => exact of_weave .skipColon
  | expression precedence => exact of_weave (.expression precedence)
  | expressionHere precedence => exact of_weave (.expressionHere precedence)
  | operand => exact of_weave .operand
  | operandHere => exact of_weave .operandHere
  | expressionList close => exact of_weave (.expressionList close)
  | nameOrRecord => exact of_weave .nameOrRecord
  | field => exact of_weave .field
  | mapHere => exact of_weave .mapHere
  | entry => exact of_weave .entry
  | arrayHere => exact of_weave .arrayHere
  | floatHere => exact of_weave .floatHere
  | unaryHere => exact of_weave .unaryHere
  | spreadHere => exact of_weave .spreadHere
  | groupHere => exact of_weave .groupHere
  | arrowBody params start => exact of_weave (.arrowBody params start)
  | functionHere => exact of_weave .functionHere
  | operatorHere left => exact of_weave (.operatorHere left)
  | binaryHere left op => exact of_weave (.binaryHere left op)
  | assignHere target op => exact of_weave (.assignHere target op)
  | rangeHere start => exact of_weave (.rangeHere start)
  | ternaryHere condition => exact of_weave (.ternaryHere condition)
  | arrowHere left => exact of_weave (.arrowHere left)
  | callHere callee => exact of_weave (.callHere callee)
  | indexHere left => exact of_weave (.indexHere left)
  | sliceStop => exact of_weave .sliceStop
  | memberHere object => exact of_weave (.memberHere object)
  | stepHere target op => exact of_weave (.stepHere target op)

end Parser

end Script
