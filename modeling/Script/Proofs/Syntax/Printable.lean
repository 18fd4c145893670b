import Script.Proofs.Syntax.Lexemes
import Script.Token.Lexer

/-!
# Which trees survive printing

Two things are asked of a tree so that its printed form is read as the same tree
again.  It has to be well formed: its names are names, its numbers can be
written, what must not be empty is not.  And it has to be faithful: the printed
form keeps all of it.  Each is a condition on single nodes, which `Every` asks
of all nodes of a tree.

The values of a `case` are read in a mode in which a name in front of a brace
stands for itself.  Whether the mode is on where a node is read is part of the
condition.  It is turned on where the values start, and behind a `case` it is
off, also if that `case` stands inside the values of another one.
-/

namespace Script

open Token (Kind)

/-! ### Words and numbers -/

namespace Syntax

/-- A name that is not reserved. -/
def isIdentifier (text : String) : Bool :=
  (match text.toList with
    | [] => false
    | c :: rest => Cursor.startsName c && rest.all Cursor.continuesName) &&
    (Kind.ofWord? text).isNone

/-- A reserved word for a type. -/
def isTypeWord (text : String) : Bool := (Kind.ofWord? text).any Kind.isType

/-- What can stand where a name or a type is meant. -/
def isTerm (text : String) : Bool := isIdentifier text || isTypeWord text

/-- Digits, a point and at least one more digit; there need not be one in front
of the point. -/
def isDecimal (text : String) : Bool :=
  match text.toList.dropWhile Cursor.isDigit with
  | '.' :: fraction => !fraction.isEmpty && fraction.all Cursor.isDigit
  | _ => false

end Syntax

open Syntax

def Name.isIdentifier (n : Name) : Bool := Syntax.isIdentifier n.text

def TypeExpr.isWellFormed : TypeExpr → Bool
  | .named name _ => isTerm name
  | .array element _ => element.isWellFormed
  | .map key value _ => key.isWellFormed && value.isWellFormed

def TypedName.isWellFormed (p : TypedName) : Bool :=
  p.name.isIdentifier && p.type.isWellFormed

def Params.isWellFormed : Params → Bool
  | .plain names => names.all Name.isIdentifier
  | .typed params => !params.isEmpty && params.all TypedName.isWellFormed

/-- The smallest integer cannot be written: without its sign it is too large. -/
def VariantDecl.isWellFormed (v : VariantDecl) : Bool :=
  v.name.isIdentifier && v.value.all (· ≠ Int64.minValue)

/-! ### Nodes -/

/-- The parts of a tree that are printed and read as a whole. -/
inductive Node where
  | expr (e : Expr)
  | stmt (s : Stmt)
  | block (b : Block)
  /-- A function from its parameters on. -/
  | function (f : Function)

namespace Node

def lexemes : Node → List Lexeme
  | expr e => e.lexemes
  | stmt s => s.lexemes
  | block b => b.lexemes
  | function f => f.tailLexemes

/-- Whether the mode for the values of a `case` is still on behind some
lexemes. -/
def inCaseAfter (inCase : Bool) (lexemes : List Lexeme) : Bool :=
  inCase && lexemes.all (·.kind ≠ .caseWord)

/-- Nodes that are read one after another, each with the mode it is read in. -/
def inTurn (inCase : Bool) : List Node → List (Bool × Node)
  | [] => []
  | n :: nodes => (inCase, n) :: inTurn (inCaseAfter inCase n.lexemes) nodes

def ofCases (cases : List Case) : List (Bool × Node) :=
  cases.flatMap fun c =>
    inTurn true (c.values.map expr) ++ [(false, block c.body)]

def ofValue : Expr → Node
  | .function f => function f
  | e => expr e

def ofHeader : LoopHeader → List Node
  | .items _ iterable => [expr iterable]
  | .pairs _ _ iterable => [expr iterable]
  | .counting start condition update =>
    (match start with
      | some (.bind _ _ _ value _) => [expr value]
      | some (.expr e _) => [expr e]
      | _ => []) ++
    condition.toList.map expr ++ update.toList.map expr

/-- The nodes right inside an expression, in the order they are read. -/
def ofExpr (inCase : Bool) : Expr → List (Bool × Node)
  | .name _ | .int .. | .float .. | .str .. | .bool .. => []
  | .unary _ right _ => inTurn inCase [expr right]
  | .binary left _ right _ => inTurn inCase [expr left, expr right]
  | .step _ target _ => inTurn inCase [expr target]
  | .assign target _ value _ => inTurn inCase [expr target, expr value]
  | .branch condition consequence alternative _ =>
    inTurn inCase (expr condition :: block consequence ::
      alternative.toList.map block)
  | .function f => inTurn inCase [function f]
  | .arrow _ body _ => inTurn inCase [expr body]
  | .call callee args _ => inTurn inCase (expr callee :: args.map expr)
  | .array elements _ => inTurn inCase (elements.map expr)
  | .index left index _ => inTurn inCase [expr left, expr index]
  | .slice left start stop _ =>
    inTurn inCase
      (expr left :: start.toList.map expr ++ stop.toList.map expr)
  | .spread value _ => inTurn inCase [expr value]
  | .map entries _ =>
    inTurn inCase (entries.flatMap fun e => [expr e.key, expr e.value])
  | .member object _ _ => inTurn inCase [expr object]
  | .record _ fields _ => inTurn inCase (fields.map fun f => expr f.value)
  | .whileLoop condition body _ => inTurn inCase [expr condition, block body]
  | .forLoop header body _ => inTurn inCase (ofHeader header ++ [block body])
  | .switch subject cases default _ =>
    (inCase, expr subject) :: ofCases cases ++
      default.toList.map fun b =>
        (inCaseAfter inCase (subject.lexemes ++ casesLexemes cases), block b)
  | .ternary condition consequence alternative _ =>
    inTurn inCase [expr condition, expr consequence, expr alternative]
  | .range start stop _ => inTurn inCase [expr start, expr stop]
  | .attempt t =>
    inTurn inCase (block t.body :: t.handler.toList.map block)

def ofStmt (inCase : Bool) : Stmt → List (Bool × Node)
  | .bind _ _ _ value _ => inTurn inCase [ofValue value]
  | .ret value _ => inTurn inCase (value.toList.map expr)
  | .attempt t =>
    inTurn inCase (block t.body :: t.handler.toList.map block)
  | .method _ f _ => inTurn inCase [function f]
  | .expr e _ => inTurn inCase [expr e]
  | .includes .. | .struct .. | .enum .. | .brk _ | .cont _ => []

/-- The nodes right inside a node, each with the mode it is read in. -/
def parts (inCase : Bool) : Node → List (Bool × Node)
  | expr e => ofExpr inCase e
  | stmt s => ofStmt inCase s
  | block b => inTurn inCase (b.statements.map stmt)
  | function f => inTurn inCase [block f.body]

/-- A condition holds of a node and of everything inside it. -/
inductive Every (P : Bool → Node → Prop) : Bool → Node → Prop where
  | intro {inCase : Bool} {n : Node} (here : P inCase n)
      (inside : ∀ inCase' n', (inCase', n') ∈ n.parts inCase →
        Every P inCase' n') : Every P inCase n

theorem Every.here {P : Bool → Node → Prop} {inCase : Bool} {n : Node}
    (h : Every P inCase n) : P inCase n := by
  cases h with
  | intro here _ => exact here

theorem Every.inside {P : Bool → Node → Prop} {inCase inCase' : Bool}
    {n n' : Node} (h : Every P inCase n) (hn : (inCase', n') ∈ n.parts inCase) :
    Every P inCase' n' := by
  cases h with
  | intro _ inside => exact inside inCase' n' hn

theorem Every.and {P Q : Bool → Node → Prop} {inCase : Bool} {n : Node}
    (hP : Every P inCase n) (hQ : Every Q inCase n) :
    Every (fun inCase n => P inCase n ∧ Q inCase n) inCase n := by
  induction hP with
  | intro here _ ih =>
    exact Every.intro ⟨here, hQ.here⟩ fun inCase' n' hn =>
      ih inCase' n' hn (hQ.inside hn)

/-! ### Well-formed nodes -/

def headerIsWellFormed : LoopHeader → Bool
  | .items item _ => item.isIdentifier
  | .pairs index value _ => index.isIdentifier && value.isIdentifier
  | .counting none _ _ => true
  | .counting (some (.bind _ name type _ _)) _ _ =>
    name.isIdentifier && type.all TypeExpr.isWellFormed
  | .counting (some (.expr ..)) _ _ => true
  | .counting (some _) _ _ => false

def attemptIsWellFormed (t : Attempt) : Bool :=
  t.param.all Name.isIdentifier && (t.handler.isSome || t.param.isNone)

/-- A single parameter of an arrow need not stand in parentheses, and then it may
be a word for a type. -/
def arrowIsWellFormed : List Name → Bool
  | [param] => isTerm param.text
  | params => params.all Name.isIdentifier

def exprIsWellFormed : Expr → Bool
  | .name id => isTerm id.text
  | .int value _ => 0 ≤ value
  | .float literal _ => isDecimal literal
  | .arrow params _ _ => arrowIsWellFormed params
  | .member _ property _ => isTerm property.text
  | .record struct fields _ =>
    struct.isIdentifier && fields.all (·.name.isIdentifier)
  | .forLoop header _ _ => headerIsWellFormed header
  | .switch _ cases _ _ => cases.all (!·.values.isEmpty)
  | .attempt t => attemptIsWellFormed t
  | _ => true

def stmtIsWellFormed : Stmt → Bool
  | .bind _ name type _ _ =>
    name.isIdentifier && type.all TypeExpr.isWellFormed
  | .includes modules grouped _ =>
    !modules.isEmpty && (grouped || modules.length == 1)
  | .attempt t => attemptIsWellFormed t
  | .struct name fields _ =>
    name.isIdentifier && fields.all Name.isIdentifier
  | .enum name variants _ =>
    name.isIdentifier && variants.all VariantDecl.isWellFormed
  | .method struct f _ => struct.isIdentifier && f.name.any Syntax.isIdentifier
  | _ => true

def WellFormed (_ : Bool) : Node → Prop
  | expr e => exprIsWellFormed e = true
  | stmt s => stmtIsWellFormed s = true
  | block _ => True
  | function f =>
    f.params.isWellFormed = true ∧ f.returns.all TypeExpr.isWellFormed = true

end Node

/-! ### Faithful nodes -/

def Expr.isSpread : Expr → Bool
  | .spread .. => true
  | _ => false

/-- Whether the printed form starts with `try`. -/
def Expr.startsWithAttempt : Expr → Bool
  | .attempt _ => true
  | .call callee _ _ => callee.startsWithAttempt
  | .member object _ _ => object.startsWithAttempt
  | _ => false
termination_by structural e => e

/-- Whether the printed form ends with a name that stands for itself. -/
def Expr.endsInName : Expr → Bool
  | .name id => id.isIdentifier
  | .spread value _ => value.endsInName
  | _ => false
termination_by structural e => e

namespace Node

def exprIsFaithful (inCase : Bool) : Expr → Bool
  | .function f => f.name.isNone
  | .call callee _ _ => !callee.isSpread
  | .member object _ _ => !object.isSpread
  | .index left _ _ => !left.isSpread
  | .slice left _ _ _ => !left.isSpread
  | .step _ target _ => !target.isSpread
  | .range _ stop _ => stop.print.toList.head? ≠ some '.'
  | .record .. => !inCase
  | _ => true

def stmtIsFaithful : Stmt → Bool
  | .bind constant name type (.function f) _ =>
    f.name.isNone || !constant && type.isNone && f.name == some name.text
  | .expr e _ => !e.startsWithAttempt
  | _ => true

/-- What printing does not lose.  A function keeps its name only where it is the
value of the variable of that name.  An operator on a spread gets inside the
spread, and `try` makes a statement.  A point behind the two points of a range
makes them three.  A struct is not instantiated in the mode for case values. -/
def Faithful (inCase : Bool) : Node → Prop
  | expr e => exprIsFaithful inCase e = true
  | stmt s => stmtIsFaithful s = true
  | block _ | function _ => True

/-- The mode for case values is still on behind the last value of a case, if
that is a name.  So the brace behind the name opens the body. -/
def caseKeepsMode (c : Case) : Bool :=
  !c.values.getLast?.any Expr.endsInName ||
    inCaseAfter true (Lexeme.listed (exprsLexemes c.values))

def exprKeepsMode : Expr → Bool
  | .switch _ cases _ _ => cases.all caseKeepsMode
  | _ => true

def KeepsMode (_ : Bool) : Node → Prop
  | expr e => exprKeepsMode e = true
  | stmt _ | block _ | function _ => True

/-- A node whose printed form is read as the same node. -/
def Printable (inCase : Bool) (n : Node) : Prop :=
  WellFormed inCase n ∧ Faithful inCase n ∧ KeepsMode inCase n

/-- A condition on all nodes of a program. -/
def EveryOf (P : Bool → Node → Prop) (p : Program) : Prop :=
  ∀ inCase n, (inCase, n) ∈ inTurn false (p.statements.map stmt) →
    Every P inCase n

/-! ### Checking a tree -/

instance {b : Bool} : (n : Node) → Decidable (WellFormed b n)
  | expr e => inferInstanceAs (Decidable (exprIsWellFormed e = true))
  | stmt s => inferInstanceAs (Decidable (stmtIsWellFormed s = true))
  | block _ => inferInstanceAs (Decidable True)
  | function _ => inferInstanceAs (Decidable (_ ∧ _))

instance {b : Bool} : (n : Node) → Decidable (Faithful b n)
  | expr e => inferInstanceAs (Decidable (exprIsFaithful b e = true))
  | stmt s => inferInstanceAs (Decidable (stmtIsFaithful s = true))
  | block _ | function _ => inferInstanceAs (Decidable True)

instance {b : Bool} : (n : Node) → Decidable (KeepsMode b n)
  | expr e => inferInstanceAs (Decidable (exprKeepsMode e = true))
  | stmt _ | block _ | function _ => inferInstanceAs (Decidable True)

/-- Checks a condition on a node and on everything inside it, if the node is not
deeper than `depth`. -/
def checks (P : Bool → Node → Prop) [∀ b n, Decidable (P b n)] :
    Nat → Bool → Node → Bool
  | 0, _, _ => false
  | depth + 1, inCase, n =>
    decide (P inCase n) &&
      (n.parts inCase).all fun part => checks P depth part.1 part.2

variable {P : Bool → Node → Prop} [∀ b n, Decidable (P b n)]

theorem every_of_checks {depth : Nat} {inCase : Bool} {n : Node}
    (h : checks P depth inCase n = true) : Every P inCase n := by
  induction depth generalizing inCase n with
  | zero => cases h
  | succ depth ih =>
    rw [checks, Bool.and_eq_true, decide_eq_true_eq, List.all_eq_true] at h
    exact Every.intro h.1 fun inCase' n' hn' => ih (h.2 (inCase', n') hn')

/-- The same for a program. -/
def checksProgram (P : Bool → Node → Prop) [∀ b n, Decidable (P b n)]
    (depth : Nat) (p : Program) : Bool :=
  (inTurn false (p.statements.map stmt)).all fun part =>
    checks P depth part.1 part.2

theorem everyOf_of_checks {p : Program} (depth : Nat)
    (h : checksProgram P depth p = true) : EveryOf P p := by
  intro inCase n hn
  exact every_of_checks (List.all_eq_true.mp h (inCase, n) hn)

end Node

end Script
