import Script.Token
import Script.Diagnostic.Problem

/-!
# Parsers

A parser walks over tokens with one token of lookahead.  It ends on the last
token of what it has read.  A parser that fails has reported why, and the next
one goes on from where it stopped.
-/

namespace Script

namespace Parser

/-- `current` is the token being looked at, `next` the one behind it, and `rest`
what follows.  Behind the last token, which is the end of input, it stands
again and again. -/
structure State where
  file : String
  source : String
  current : Token
  next : Token
  rest : List Token
  /-- What has been reported, each in one line. -/
  errors : Array String := #[]
  diagnostics : Array Diagnostic := #[]
  /-- Set inside the values of a `case`, where a name in front of a brace is not
  the start of a struct instantiation. -/
  inCase : Bool := false

/-- How a parser ends.  `exhausted` says that the bound on its recursion was too
small. -/
inductive Outcome (α : Type) where
  | ok (value : α) (s : State)
  | failed (s : State)
  | exhausted

end Parser

def Parser (α : Type) : Type := Parser.State → Parser.Outcome α

namespace Parser

@[always_inline, inline]
def pure {α : Type} (value : α) : Parser α := fun s => .ok value s

@[always_inline, inline]
def bind {α β : Type} (p : Parser α) (f : α → Parser β) : Parser β := fun s =>
  match p s with
  | .ok value s => f value s
  | .failed s => .failed s
  | .exhausted => .exhausted

instance : Monad Parser where
  pure := Parser.pure
  bind := Parser.bind

/-! ### Looking at tokens -/

def locationOf (s : State) (t : Token) : Location :=
  Location.onLine s.file t.line t.column t.endColumn

def current : Parser Token := fun s => .ok s.current s

/-- The location of the current token. -/
def here : Parser Location := fun s => .ok (locationOf s s.current) s

/-- The region from the start of `start` to the end of the current token. -/
def spanFrom (start : Location) : Parser Location := fun s =>
  .ok (start.through (locationOf s s.current)) s

def currentIs (kind : Token.Kind) : Parser Bool := fun s =>
  .ok (s.current.kind == kind) s

def nextIs (kind : Token.Kind) : Parser Bool := fun s =>
  .ok (s.next.kind == kind) s

def nextKind : Parser Token.Kind := fun s => .ok s.next.kind s

def advance : Parser Unit := fun s =>
  match s.rest with
  | [] => .ok () { s with current := s.next }
  | t :: rest => .ok () { s with current := s.next, next := t, rest }

/-! ### Failing -/

/-- Fails without a report. -/
def giveUp {α : Type} : Parser α := fun s => .failed s

/-- The state after a report. -/
def State.record (s : State) (d : Diagnostic) : State :=
  { s with
    errors := s.errors.push d.line
    diagnostics := s.diagnostics.push (d.attach s.source) }

/-- Reports a problem and fails. -/
def fail {α : Type} (problem : Problem) (loc : Location) : Parser α := fun s =>
  .failed (s.record (problem.report loc))

/-- Fails because the current token is not what was `expected`. -/
def unexpected {α : Type} (expected : String) : Parser α := do
  let t ← current
  fail (.unexpectedToken expected t.describe) (← here)

/-- What is wrong with the next token if something else was `expected`. -/
def nextProblem (expected : String) (t : Token) : Problem :=
  match t.kind with
  | .illegal => .illegalCharacter t.text
  | .unterminatedString => .unterminatedString
  | _ => .unexpectedToken expected t.describe

def failAtNext {α : Type} (expected : String) : Parser α := fun s =>
  fail (nextProblem expected s.next) (locationOf s s.next) s

/-- Moves on to the next token, which has to be of this kind. -/
def expect (kind : Token.Kind) : Parser Unit := do
  if ← nextIs kind then advance else failAtNext kind.text

/-- The result of a parser, or nothing if it fails. -/
def optional {α : Type} (p : Parser α) : Parser (Option α) := fun s =>
  match p s with
  | .ok value s => .ok (some value) s
  | .failed s => .ok none s
  | .exhausted => .exhausted

/-- Runs a parser inside the values of a `case`.  Behind them the parser is
outside any such values. -/
def inCaseValues {α : Type} (p : Parser α) : Parser α := fun s =>
  match p { s with inCase := true } with
  | .ok value s => .ok value { s with inCase := false }
  | .failed s => .failed { s with inCase := false }
  | .exhausted => .exhausted

def insideCase : Parser Bool := fun s => .ok s.inCase s

/-! ### Repetition -/

/-- What one pass of a loop decides. -/
inductive Pass (σ β : Type) where
  | again (state : σ)
  | done (result : β)

/-- At most one pass for each of the tokens. -/
def iterate {σ β : Type} (body : σ → Parser (Pass σ β)) :
    List Token → σ → Parser β
  | [], _ => fun _ => .exhausted
  | _ :: tokens, state => fun s =>
    match body state s with
    | .ok (.again state) s => iterate body tokens state s
    | .ok (.done result) s => .ok result s
    | .failed s => .failed s
    | .exhausted => .exhausted

/-- A loop each of whose passes but the last takes a token.  One pass more than
there are tokens left lets it see the end of input. -/
def repeated {σ β : Type} (body : σ → Parser (Pass σ β)) (state : σ) :
    Parser β := fun s =>
  iterate body (s.current :: s.current :: s.next :: s.rest) state s

end Parser

end Script
