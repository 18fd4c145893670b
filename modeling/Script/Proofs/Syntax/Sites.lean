import Script.Proofs.Token.Order
import Script.Syntax.Tree

/-!
# Sites

A site is a part of a program that has a location of its own.  What holds of every site
of a program holds of the program, of the sites right inside it, and so on.
-/

namespace Script

inductive Site where
  | program (p : Program)
  | stmt (st : Stmt)
  | block (b : Block)
  | expr (e : Expr)
  | case (c : Case)
  | function (f : Function)
  | attempt (t : Attempt)
  | name (id : Name)
  | type (t : TypeExpr)

/-- The sites of a loop header, which has no location itself. -/
def LoopHeader.sites : LoopHeader → List Site
  | .items item iterable => [.name item, .expr iterable]
  | .pairs index value iterable => [.name index, .name value, .expr iterable]
  | .counting start condition update =>
    start.toList.map .stmt ++ condition.toList.map .expr ++ update.toList.map .expr

/-- The sites of parameters. -/
def Params.sites : Params → List Site
  | .plain names => names.map .name
  | .typed params => params.flatMap fun p => [.name p.name, .type p.type]

namespace Site

def loc : Site → Location
  | program p => p.loc
  | stmt st => st.loc
  | block b => b.loc
  | expr e => e.loc
  | case c => c.loc
  | function f => f.loc
  | attempt t => t.loc
  | name id => id.loc
  | type t => t.loc

def ofType : TypeExpr → List Site
  | .named _ _ => []
  | .array element _ => [type element]
  | .map key value _ => [type key, type value]

def ofExpr : Expr → List Site
  | .name id => [name id]
  | .int .. | .float .. | .str .. | .bool .. => []
  | .unary _ right _ => [expr right]
  | .binary left _ right _ => [expr left, expr right]
  | .step _ target _ => [expr target]
  | .assign target _ value _ => [expr target, expr value]
  | .branch condition consequence alternative _ =>
    expr condition :: block consequence :: alternative.toList.map block
  | .function f => [function f]
  | .arrow params body _ => params.map name ++ [expr body]
  | .call callee args _ => expr callee :: args.map expr
  | .array elements _ => elements.map expr
  | .index left index _ => [expr left, expr index]
  | .slice left start stop _ =>
    expr left :: start.toList.map expr ++ stop.toList.map expr
  | .spread value _ => [expr value]
  | .map entries _ => entries.flatMap fun e => [expr e.key, expr e.value]
  | .member object property _ => [expr object, name property]
  | .record struct fields _ =>
    name struct :: fields.flatMap fun f => [name f.name, expr f.value]
  | .whileLoop condition body _ => [expr condition, block body]
  | .forLoop header body _ => header.sites ++ [block body]
  | .switch subject cases default _ =>
    expr subject :: cases.map case ++ default.toList.map block
  | .ternary condition consequence alternative _ =>
    [expr condition, expr consequence, expr alternative]
  | .range start stop _ => [expr start, expr stop]
  | .attempt t => [attempt t]

def ofStmt : Stmt → List Site
  | .bind _ id type? value _ => name id :: type?.toList.map type ++ [expr value]
  | .ret value _ => value.toList.map expr
  | .includes .. | .brk _ | .cont _ => []
  | .attempt t => [attempt t]
  | .struct id fields _ => name id :: fields.map name
  | .enum id variants _ => name id :: variants.map fun v => name v.name
  | .method struct f _ => [name struct, function f]
  | .expr e _ => [expr e]

/-- The sites right inside a site. -/
def parts : Site → List Site
  | program p => p.statements.map stmt
  | stmt st => ofStmt st
  | block b => b.statements.map stmt
  | expr e => ofExpr e
  | case c => c.values.map expr ++ [block c.body]
  | function f => f.params.sites ++ f.returns.map type ++ [block f.body]
  | attempt t => block t.body :: t.param.toList.map name ++ t.handler.toList.map block
  | name _ => []
  | type t => ofType t

/-- A condition holds of a site and of everything inside it. -/
inductive Every (P : Site → Prop) : Site → Prop where
  | intro {x : Site} (here : P x) (inside : ∀ y ∈ x.parts, Every P y) : Every P x

theorem Every.here {P : Site → Prop} {x : Site} (h : Every P x) : P x := by
  cases h with
  | intro here _ => exact here

theorem Every.inside {P : Site → Prop} {x y : Site} (h : Every P x) (hy : y ∈ x.parts) :
    Every P y := by
  cases h with
  | intro _ inside => exact inside y hy

theorem Every.mono {P Q : Site → Prop} {x : Site} (h : Every P x)
    (hPQ : ∀ y, P y → Q y) : Every Q x := by
  induction h with
  | intro here _ ih => exact .intro (hPQ _ here) ih

/-- What is handed down from a site to what is right inside it reaches every site. -/
theorem Every.along {P Q : Site → Prop} {x : Site} (h : Every P x) (hx : Q x)
    (hdown : ∀ x, Q x → ∀ y ∈ x.parts, Q y) : Every (fun x => P x ∧ Q x) x := by
  induction h with
  | @intro x here _ ih => exact .intro ⟨here, hx⟩ fun y hy => ih y hy (hdown x hx y hy)

/-! ### Nesting -/

/-- The statements that a site lists. -/
def statements : Site → List Stmt
  | program p => p.statements
  | block b => b.statements
  | _ => []

/-- A site stands in the file, what is right inside it stands within it, and its statements
follow one another. -/
structure Nests (file : String) (x : Site) : Prop where
  proper : x.loc.Proper file
  within : ∀ y ∈ x.parts, y.loc.Within x.loc
  ordered : x.statements.Pairwise fun st st' => st.loc.stop ≤ st'.loc.start

/-- A function has typed parameters exactly if a colon stands in front of its body. -/
def Marked (tokens : List Token) : Site → Prop
  | function f => (∃ params, f.params = .typed params) ↔
      ∃ t ∈ tokens, t.kind = .colon ∧ f.loc.start ≤ t.start ∧ t.start < f.body.loc.start
  | _ => True

end Site

end Script
