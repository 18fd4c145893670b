import Script.Syntax.Parser.Expression
import Script.Token.Lexer

/-!
# Parsing programs

`parse` reads a source text as a program.  A text that is not one is refused
with all the problems that were found on the way.
-/

namespace Script

namespace Parser

namespace Grammar

variable (g : Grammar)

/-- A statement without its semicolon.  A semicolon alone is no statement, and
no error either. -/
def statementBody : Parser Stmt := do
  match (← current).kind with
  | .letWord => g.binding false
  | .constWord => g.binding true
  | .returnWord => g.returning
  | .includeWord => inclusion
  | .tryWord => return .attempt (← g.attempt)
  | .structWord => structDeclaration
  | .enumWord => enumDeclaration
  | .breakWord => return .brk (← here)
  | .continueWord => return .cont (← here)
  | .semicolon => giveUp
  | .defineWord =>
    if ← nextIs .lparen then g.expressionStatement else g.definition
  | _ => g.expressionStatement

/-- A statement at the current token, with the semicolon behind it. -/
def statementHere : Parser Stmt := do
  let statement ← g.statementBody
  if ← nextIs .semicolon then advance
  return statement

end Grammar

/-- The grammar with at most `n` productions inside one another. -/
def grammar : Nat → Grammar
  | 0 =>
    { expression := fun _ _ => .exhausted
      statement := fun _ => .exhausted
      branch := fun _ => .exhausted
      type := fun _ => .exhausted }
  | n + 1 =>
    { expression := fun precedence s => (grammar n).expressionHere precedence s
      statement := fun s => (grammar n).statementHere s
      branch := fun s => (grammar n).branchHere s
      type := fun s => (grammar n).typeHere s }

/-- Statements up to the end of input.  After a statement that fails, the next
one is tried. -/
def program (g : Grammar) : Parser Program := do
  let start ← here
  let statements ← repeated (fun statements => do
    if ← currentIs .eof then
      return .done (statements : List Stmt).reverse
    else
      let statement ← optional g.statement
      advance
      return .again (statement.toList ++ statements)) []
  return { statements, loc := ← spanFrom start }

/-- The state in front of a list of tokens. -/
def State.initial (file source : String) (tokens : List Token) : State :=
  let last := tokens.getLastD default
  { file, source, current := tokens.headD last,
    next := tokens.tail.headD last, rest := tokens.drop 2 }

end Parser

/-- The problems that keep a text from being a program, in the order they were
found, each in one line and as a report. -/
structure ParseFailure where
  lines : List String
  diagnostics : List Diagnostic
  deriving Repr

/-- How many problems there are, and the first one. -/
def ParseFailure.message (failure : ParseFailure) : String :=
  toString failure.lines.length ++ " parse error(s); first: " ++
    failure.lines.headD ""

/-- All that was reported. -/
def Parser.State.failure (s : State) : ParseFailure :=
  { lines := s.errors.toList, diagnostics := s.diagnostics.toList }

/-- The bound on nested productions for a text with this many tokens.  Between
two productions inside one another at least every second takes a token. -/
def Parser.nestingBound (tokens : Nat) : Nat := 2 * tokens + 2

/-- The program that a source text stands for. -/
def parse (file source : String) : Except ParseFailure Program :=
  let tokens := tokenize source
  let grammar := Parser.grammar (Parser.nestingBound tokens.length)
  match Parser.program grammar (Parser.State.initial file source tokens) with
  | .ok program s =>
    if s.errors.isEmpty then .ok program else .error s.failure
  | .failed s => .error s.failure
  | .exhausted => .error { lines := [], diagnostics := [] }

end Script
