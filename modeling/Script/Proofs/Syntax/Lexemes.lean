import Script.Syntax.Printer
import Script.Token

/-!
# The lexemes of a tree

A lexeme is a token without its position.  The lexemes of a tree are those that
its printed form is made of.  They stand between the text and the tree: the
lexer finds them in the text, and the parser makes the tree of them.
-/

namespace Script

/-- A token without its place. -/
structure Lexeme where
  kind : Token.Kind
  text : String
  deriving DecidableEq, Repr

def Token.lexeme (t : Token) : Lexeme := { kind := t.kind, text := t.text }

namespace Lexeme

/-- The lexeme of a kind that is always written in the same way. -/
def sign (kind : Token.Kind) : Lexeme := { kind, text := kind.text }

/-- The lexeme of a name or a reserved word. -/
def word (text : String) : Lexeme :=
  { kind := (Token.Kind.ofWord? text).getD .ident, text }

@[simp]
theorem sign_kind (kind : Token.Kind) : (sign kind).kind = kind := rfl

@[simp]
theorem word_text (text : String) : (word text).text = text := rfl

/-- What the lexer gives once the text has been read. -/
def endOfInput : Lexeme := { kind := .eof, text := "" }

/-- Items with a comma in front of each. -/
def further : List (List Lexeme) → List Lexeme
  | [] => []
  | item :: items => sign .comma :: item ++ further items

/-- Items with commas between them. -/
def listed : List (List Lexeme) → List Lexeme
  | [] => []
  | item :: items => item ++ further items

end Lexeme

open Lexeme

/-! ### Operators -/

/-- Two of these are steps, which may stand behind an operand as well. -/
def PrefixOp.kind : PrefixOp → Token.Kind
  | minus => .minus
  | not => .bang
  | increment => .increment
  | decrement => .decrement

def BinaryOp.kind : BinaryOp → Token.Kind
  | add => .plus
  | sub => .minus
  | mul => .asterisk
  | div => .slash
  | mod => .percent
  | lt => .lt
  | gt => .gt
  | le => .le
  | ge => .ge
  | eq => .eq
  | ne => .notEq
  | and => .and
  | or => .or

def StepOp.kind : StepOp → Token.Kind
  | increment => .increment
  | decrement => .decrement

def AssignOp.kind : AssignOp → Token.Kind
  | assign => .assign
  | add => .plusAssign
  | sub => .minusAssign
  | mul => .starAssign
  | div => .slashAssign
  | mod => .percentAssign

/-! ### Types and declarations -/

def Name.lexeme (n : Name) : Lexeme := word n.text

/-- The name of a type may be a reserved word. -/
def TypeExpr.lexemes : TypeExpr → List Lexeme
  | .named name _ => [word name]
  | .array element _ => sign .lbracket :: sign .rbracket :: element.lexemes
  | .map key value _ =>
    sign .typeMap :: sign .lbracket :: key.lexemes ++
      sign .rbracket :: value.lexemes

def TypedName.lexemes (p : TypedName) : List Lexeme :=
  p.name.lexeme :: sign .colon :: p.type.lexemes

def Params.lexemes (params : Params) : List Lexeme :=
  sign .lparen :: listed (match params with
    | .plain names => names.map fun n => [n.lexeme]
    | .typed params => params.map TypedName.lexemes) ++ [sign .rparen]

namespace Syntax

/-- Only several types are put into parentheses. -/
def returnLexemes : List TypeExpr → List Lexeme
  | [] => []
  | [single] => sign .arrow :: single.lexemes
  | several =>
    sign .arrow :: sign .lparen :: listed (several.map TypeExpr.lexemes) ++
      [sign .rparen]

def annotationLexemes : Option TypeExpr → List Lexeme
  | some type => sign .colon :: type.lexemes
  | none => []

/-- A number, perhaps with a minus sign in front. -/
def numberLexemes (n : Int64) : List Lexeme :=
  if n < 0 then [sign .minus, { kind := .int, text := toString (-n) }]
  else [{ kind := .int, text := toString n }]

end Syntax

open Syntax

def VariantDecl.lexemes (v : VariantDecl) : List Lexeme :=
  v.name.lexeme :: match v.value with
    | some n => sign .assign :: numberLexemes n
    | none => []

/-! ### Expressions and statements -/

mutual

/-- Operators are printed in parentheses, so that the tree does not depend on
precedence. -/
def Expr.lexemes : Expr → List Lexeme
  | .name id => [id.lexeme]
  | .int value _ => [{ kind := .int, text := toString value }]
  | .float literal _ => [{ kind := .float, text := literal }]
  | .str value _ => [{ kind := .str, text := value }]
  | .bool value _ => [sign (if value then .trueWord else .falseWord)]
  | .unary op right _ =>
    sign .lparen :: sign op.kind :: right.lexemes ++ [sign .rparen]
  | .binary left op right _ =>
    sign .lparen :: left.lexemes ++ sign op.kind :: right.lexemes ++
      [sign .rparen]
  | .step op target _ =>
    sign .lparen :: target.lexemes ++ [sign op.kind, sign .rparen]
  | .assign target op value _ =>
    sign .lparen :: target.lexemes ++ sign op.kind :: value.lexemes ++
      [sign .rparen]
  | .branch condition consequence alternative _ =>
    sign .ifWord :: sign .lparen :: condition.lexemes ++
      sign .rparen :: consequence.lexemes ++ alternativeLexemes alternative
  | .function f => sign .defineWord :: f.tailLexemes
  | .arrow params body _ =>
    sign .lparen :: sign .lparen ::
      listed (params.map fun n => [n.lexeme]) ++
      sign .rparen :: sign .fatArrow :: body.lexemes ++ [sign .rparen]
  | .call callee args _ =>
    callee.lexemes ++ sign .lparen :: listed (exprsLexemes args) ++
      [sign .rparen]
  | .array elements _ =>
    sign .lbracket :: listed (exprsLexemes elements) ++ [sign .rbracket]
  | .index left index _ =>
    sign .lparen :: left.lexemes ++ sign .lbracket :: index.lexemes ++
      [sign .rbracket, sign .rparen]
  | .slice left start stop _ =>
    sign .lparen :: left.lexemes ++ sign .lbracket :: optionLexemes start ++
      sign .colon :: optionLexemes stop ++ [sign .rbracket, sign .rparen]
  | .spread value _ => sign .spread :: value.lexemes
  | .map entries _ =>
    sign .lbrace :: listed (entriesLexemes entries) ++ [sign .rbrace]
  | .member object property _ =>
    object.lexemes ++ [sign .dot, property.lexeme]
  | .record struct fields _ =>
    struct.lexeme :: sign .lbrace :: listed (fieldsLexemes fields) ++
      [sign .rbrace]
  | .whileLoop condition body _ =>
    sign .whileWord :: sign .lparen :: condition.lexemes ++
      sign .rparen :: body.lexemes
  | .forLoop header body _ =>
    sign .forWord :: sign .lparen :: header.lexemes ++
      sign .rparen :: body.lexemes
  | .switch subject cases default _ =>
    sign .switchWord :: sign .lparen :: subject.lexemes ++
      sign .rparen :: sign .lbrace :: casesLexemes cases ++
      defaultLexemes default ++ [sign .rbrace]
  | .ternary condition consequence alternative _ =>
    sign .lparen :: condition.lexemes ++ sign .question ::
      consequence.lexemes ++ sign .colon :: alternative.lexemes ++
      [sign .rparen]
  | .range start stop _ =>
    sign .lparen :: start.lexemes ++ sign .range :: stop.lexemes ++
      [sign .rparen]
  | .attempt t => t.lexemes
termination_by structural e => e

/-- Parameters, return types and body. -/
def Function.tailLexemes : Function → List Lexeme
  | ⟨_, params, returns, body, _⟩ =>
    params.lexemes ++ returnLexemes returns ++ body.lexemes
termination_by structural f => f

def Block.lexemes : Block → List Lexeme
  | ⟨statements, _⟩ =>
    sign .lbrace :: statementsLexemes statements ++ [sign .rbrace]
termination_by structural b => b

/-- What stands between the parentheses of a loop. -/
def LoopHeader.lexemes : LoopHeader → List Lexeme
  | .items item iterable => item.lexeme :: sign .inWord :: iterable.lexemes
  | .pairs index value iterable =>
    index.lexeme :: sign .comma :: value.lexeme :: sign .inWord ::
      iterable.lexemes
  | .counting start condition update =>
    startLexemes start ++ sign .semicolon :: optionLexemes condition ++
      sign .semicolon :: optionLexemes update
termination_by structural h => h

def Entry.lexemes : Entry → List Lexeme
  | ⟨key, value⟩ => key.lexemes ++ sign .colon :: value.lexemes
termination_by structural e => e

def Field.lexemes : Field → List Lexeme
  | ⟨name, value⟩ => name.lexeme :: sign .colon :: value.lexemes
termination_by structural f => f

def Case.lexemes : Case → List Lexeme
  | ⟨values, body, _⟩ =>
    sign .caseWord :: listed (exprsLexemes values) ++ body.lexemes
termination_by structural c => c

def Attempt.lexemes : Attempt → List Lexeme
  | ⟨body, param, handler, _⟩ =>
    sign .tryWord :: body.lexemes ++ handlerLexemes param handler
termination_by structural t => t

/-- A variable that is bound to a function of its own name is written as a definition.
-/
def Stmt.lexemes : Stmt → List Lexeme
  | .bind false name none (.function f) _ =>
    if f.name = some name.text then
      sign .defineWord :: name.lexeme :: f.tailLexemes
    else
      sign .letWord :: name.lexeme :: sign .assign :: sign .defineWord ::
        f.tailLexemes ++ [sign .semicolon]
  | .bind constant name type value _ =>
    sign (if constant then .constWord else .letWord) :: name.lexeme ::
      annotationLexemes type ++ sign .assign :: value.lexemes ++
      [sign .semicolon]
  | .ret value _ =>
    sign .returnWord :: optionLexemes value ++ [sign .semicolon]
  | .includes modules grouped _ =>
    sign .includeWord :: (if grouped then [sign .lparen] else []) ++
      listed (modules.map fun module => [{ kind := .str, text := module }]) ++
      (if grouped then [sign .rparen] else []) ++ [sign .semicolon]
  | .attempt t => t.lexemes
  | .struct name fields _ =>
    sign .structWord :: name.lexeme :: sign .lbrace ::
      listed (fields.map fun n => [n.lexeme]) ++ [sign .rbrace]
  | .enum name variants _ =>
    sign .enumWord :: name.lexeme :: sign .lbrace ::
      listed (variants.map VariantDecl.lexemes) ++ [sign .rbrace]
  | .method struct f _ =>
    sign .defineWord :: struct.lexeme :: sign .dot ::
      word (f.name.getD "method") :: f.tailLexemes
  | .brk _ => [sign .breakWord, sign .semicolon]
  | .cont _ => [sign .continueWord, sign .semicolon]
  | .expr e _ => e.lexemes ++ [sign .semicolon]
termination_by structural s => s

/-- The items are kept apart, for the commas between them. -/
def exprsLexemes : List Expr → List (List Lexeme)
  | [] => []
  | e :: rest => e.lexemes :: exprsLexemes rest
termination_by structural es => es

def entriesLexemes : List Entry → List (List Lexeme)
  | [] => []
  | e :: rest => e.lexemes :: entriesLexemes rest
termination_by structural es => es

def fieldsLexemes : List Field → List (List Lexeme)
  | [] => []
  | f :: rest => f.lexemes :: fieldsLexemes rest
termination_by structural fs => fs

/-- Cases follow one another without a sign between them. -/
def casesLexemes : List Case → List Lexeme
  | [] => []
  | c :: rest => c.lexemes ++ casesLexemes rest
termination_by structural cs => cs

def statementsLexemes : List Stmt → List Lexeme
  | [] => []
  | s :: rest => s.lexemes ++ statementsLexemes rest
termination_by structural ss => ss

def optionLexemes : Option Expr → List Lexeme
  | none => []
  | some e => e.lexemes
termination_by structural e => e

/-- The first statement of a counting header, without its semicolon. -/
def startLexemes : Option Stmt → List Lexeme
  | some (.bind constant name type value _) =>
    sign (if constant then .constWord else .letWord) :: name.lexeme ::
      annotationLexemes type ++ sign .assign :: value.lexemes
  | some (.expr e _) => e.lexemes
  | _ => []
termination_by structural s => s

def alternativeLexemes : Option Block → List Lexeme
  | none => []
  | some b => sign .elseWord :: b.lexemes
termination_by structural b => b

def defaultLexemes : Option Block → List Lexeme
  | none => []
  | some b => sign .defaultWord :: b.lexemes
termination_by structural b => b

/-- The parameter of a handler stands in parentheses. -/
def handlerLexemes (param : Option Name) : Option Block → List Lexeme
  | none => []
  | some b =>
    sign .catchWord :: (match param with
      | some name => [sign .lparen, name.lexeme, sign .rparen]
      | none => []) ++ b.lexemes
termination_by structural b => b

end

/-- The lexemes of a program, with the end of input. -/
def Program.lexemes (p : Program) : List Lexeme :=
  statementsLexemes p.statements ++ [endOfInput]

end Script
