import Script.Proofs.Syntax.Bare
import Script.Syntax.Printer

/-!
# Moving the locations of a tree

`relocate` sends every location of a tree through a function.  A tree stays the
same if nothing is moved, and it is bare if everything is moved to one place.
-/

namespace Script

section

variable (move : Location → Location)

/-- The text of a name stays, whatever happens to its place. -/
def Name.relocate (n : Name) : Name := { n with loc := move n.loc }

/-- A type has a place for each name and each bracket in it. -/
def TypeExpr.relocate : TypeExpr → TypeExpr
  | .named name loc => .named name (move loc)
  | .array element loc => .array element.relocate (move loc)
  | .map key value loc => .map key.relocate value.relocate (move loc)

def TypedName.relocate (p : TypedName) : TypedName :=
  { name := p.name.relocate move, type := p.type.relocate move }

/-- Typed parameters have a place for the name and one for the type. -/
def Params.relocate : Params → Params
  | .plain names => .plain (names.map (Name.relocate move))
  | .typed params => .typed (params.map (TypedName.relocate move))

/-- Only the name of a variant has a place. -/
def VariantDecl.relocate (v : VariantDecl) : VariantDecl :=
  { v with name := v.name.relocate move }

mutual

/-- An expression with all that is in it, down to the bodies of functions. -/
def Expr.relocate : Expr → Expr
  | .name id => .name (id.relocate move)
  | .int value loc => .int value (move loc)
  | .float literal loc => .float literal (move loc)
  | .str value loc => .str value (move loc)
  | .bool value loc => .bool value (move loc)
  | .unary op right loc => .unary op right.relocate (move loc)
  | .binary left op right loc =>
    .binary left.relocate op right.relocate (move loc)
  | .step op target loc => .step op target.relocate (move loc)
  | .assign target op value loc =>
    .assign target.relocate op value.relocate (move loc)
  | .branch condition consequence alternative loc =>
    .branch condition.relocate consequence.relocate
      (relocateBlock? alternative) (move loc)
  | .function f => .function f.relocate
  | .arrow params body loc =>
    .arrow (params.map (Name.relocate move)) body.relocate (move loc)
  | .call callee args loc =>
    .call callee.relocate (relocateExprs args) (move loc)
  | .array elements loc => .array (relocateExprs elements) (move loc)
  | .index left index loc => .index left.relocate index.relocate (move loc)
  | .slice left start stop loc =>
    .slice left.relocate (relocateExpr? start) (relocateExpr? stop) (move loc)
  | .spread value loc => .spread value.relocate (move loc)
  | .map entries loc => .map (relocateEntries entries) (move loc)
  | .member object property loc =>
    .member object.relocate (property.relocate move) (move loc)
  | .record struct fields loc =>
    .record (struct.relocate move) (relocateFields fields) (move loc)
  | .whileLoop condition body loc =>
    .whileLoop condition.relocate body.relocate (move loc)
  | .forLoop header body loc =>
    .forLoop header.relocate body.relocate (move loc)
  | .switch subject cases default loc =>
    .switch subject.relocate (relocateCases cases) (relocateBlock? default)
      (move loc)
  | .ternary condition consequence alternative loc =>
    .ternary condition.relocate consequence.relocate alternative.relocate
      (move loc)
  | .range start stop loc => .range start.relocate stop.relocate (move loc)
  | .attempt t => .attempt t.relocate
termination_by structural e => e

def Entry.relocate : Entry → Entry
  | ⟨key, value⟩ => ⟨key.relocate, value.relocate⟩
termination_by structural e => e

def Field.relocate : Field → Field
  | ⟨name, value⟩ => ⟨name.relocate move, value.relocate⟩
termination_by structural f => f

/-- A header has no place of its own. -/
def LoopHeader.relocate : LoopHeader → LoopHeader
  | .items item iterable => .items (item.relocate move) iterable.relocate
  | .pairs index value iterable =>
    .pairs (index.relocate move) (value.relocate move) iterable.relocate
  | .counting start condition update =>
    .counting (relocateStmt? start) (relocateExpr? condition)
      (relocateExpr? update)
termination_by structural h => h

def Case.relocate : Case → Case
  | ⟨values, body, loc⟩ => ⟨relocateExprs values, body.relocate, move loc⟩
termination_by structural c => c

def Attempt.relocate : Attempt → Attempt
  | ⟨body, param, handler, loc⟩ =>
    ⟨body.relocate, param.map (Name.relocate move), relocateBlock? handler,
      move loc⟩
termination_by structural t => t

/-- The name of a function has no place of its own. -/
def Function.relocate : Function → Function
  | ⟨name, params, returns, body, loc⟩ =>
    ⟨name, params.relocate move, returns.map (TypeExpr.relocate move),
      body.relocate, move loc⟩
termination_by structural f => f

def Block.relocate : Block → Block
  | ⟨statements, loc⟩ => ⟨relocateStmts statements, move loc⟩
termination_by structural b => b

/-- A statement with all that is in it. -/
def Stmt.relocate : Stmt → Stmt
  | .bind constant name type value loc =>
    .bind constant (name.relocate move) (type.map (TypeExpr.relocate move))
      value.relocate (move loc)
  | .ret value loc => .ret (relocateExpr? value) (move loc)
  | .includes modules grouped loc => .includes modules grouped (move loc)
  | .attempt t => .attempt t.relocate
  | .struct name fields loc =>
    .struct (name.relocate move) (fields.map (Name.relocate move)) (move loc)
  | .enum name variants loc =>
    .enum (name.relocate move) (variants.map (VariantDecl.relocate move))
      (move loc)
  | .method struct f loc =>
    .method (struct.relocate move) f.relocate (move loc)
  | .brk loc => .brk (move loc)
  | .cont loc => .cont (move loc)
  | .expr e loc => .expr e.relocate (move loc)
termination_by structural s => s

/-- The recursion runs through lists of its own, so that it is structural. -/
def relocateExprs : List Expr → List Expr
  | [] => []
  | e :: rest => e.relocate :: relocateExprs rest
termination_by structural es => es

def relocateEntries : List Entry → List Entry
  | [] => []
  | e :: rest => e.relocate :: relocateEntries rest
termination_by structural es => es

def relocateFields : List Field → List Field
  | [] => []
  | f :: rest => f.relocate :: relocateFields rest
termination_by structural fs => fs

def relocateCases : List Case → List Case
  | [] => []
  | c :: rest => c.relocate :: relocateCases rest
termination_by structural cs => cs

def relocateStmts : List Stmt → List Stmt
  | [] => []
  | s :: rest => s.relocate :: relocateStmts rest
termination_by structural ss => ss

/-- A part that is absent stays absent. -/
def relocateExpr? : Option Expr → Option Expr
  | none => none
  | some e => some e.relocate
termination_by structural e => e

def relocateStmt? : Option Stmt → Option Stmt
  | none => none
  | some s => some s.relocate
termination_by structural s => s

def relocateBlock? : Option Block → Option Block
  | none => none
  | some b => some b.relocate
termination_by structural b => b

end

/-- A program moves as a whole, from its own place to the last one in it. -/
def Program.relocate (p : Program) : Program :=
  { statements := p.statements.map (Stmt.relocate move), loc := move p.loc }

end

/-! ### Lists -/

section

variable (move : Location → Location)

/-- The lists of the recursion are the usual ones. -/
theorem relocateExprs_eq_map (es : List Expr) :
    relocateExprs move es = es.map (Expr.relocate move) := by
  induction es with
  | nil => rfl
  | cons e es ih => rw [relocateExprs, ih, List.map_cons]

theorem relocateEntries_eq_map (es : List Entry) :
    relocateEntries move es = es.map (Entry.relocate move) := by
  induction es with
  | nil => rfl
  | cons e es ih => rw [relocateEntries, ih, List.map_cons]

theorem relocateFields_eq_map (fs : List Field) :
    relocateFields move fs = fs.map (Field.relocate move) := by
  induction fs with
  | nil => rfl
  | cons f fs ih => rw [relocateFields, ih, List.map_cons]

theorem relocateCases_eq_map (cs : List Case) :
    relocateCases move cs = cs.map (Case.relocate move) := by
  induction cs with
  | nil => rfl
  | cons c cs ih => rw [relocateCases, ih, List.map_cons]

theorem relocateStmts_eq_map (ss : List Stmt) :
    relocateStmts move ss = ss.map (Stmt.relocate move) := by
  induction ss with
  | nil => rfl
  | cons s ss ih => rw [relocateStmts, ih, List.map_cons]

/-- A block runs its statements one by one, so they are asked for in front of a list. -/
theorem Block.statements_relocate (b : Block) :
    (b.relocate move).statements = b.statements.map (Stmt.relocate move) := by
  cases b
  exact relocateStmts_eq_map move _

/-! ### What stays -/

/-- The place of an expression moves as every other place does, also where it is that of
a part. -/
@[simp]
theorem Expr.loc_relocate (e : Expr) : (e.relocate move).loc = move e.loc := by
  cases e with
  | function f => cases f; rfl
  | attempt t => cases t; rfl
  | _ => rfl

/-- Messages show types by their text, which says nothing of places. -/
@[simp]
theorem TypeExpr.print_relocate (t : TypeExpr) :
    (t.relocate move).print = t.print := by
  induction t with
  | named => rfl
  | array element loc ih => simp [relocate, print, ih]
  | map key value loc hkey hvalue => simp [relocate, print, hkey, hvalue]

/-- The items of an array are checked against a part of the type that moves along. -/
@[simp]
theorem TypeExpr.element?_relocate (t : TypeExpr) :
    (t.relocate move).element? = t.element?.map (TypeExpr.relocate move) := by
  cases t <;> rfl

theorem TypeExpr.map_print_relocate (types : List TypeExpr) :
    (types.map (TypeExpr.relocate move)).map TypeExpr.print =
      types.map TypeExpr.print := by
  simp [Function.comp_def]

/-- Calls count their arguments against the parameters. -/
@[simp]
theorem Params.count_relocate (p : Params) :
    (p.relocate move).count = p.count := by
  cases p <;> simp [relocate, count]

end

/-! ### Nothing is moved -/

theorem Name.relocate_id (n : Name) : n.relocate id = n := rfl

/-- Lists of names come up as parameters and as the fields of structs. -/
theorem Name.map_relocate_id (names : List Name) :
    names.map (Name.relocate id) = names :=
  List.map_id names

/-- To move nothing keeps a type, and in the same way all that follows. -/
theorem TypeExpr.relocate_id (t : TypeExpr) : t.relocate id = t := by
  induction t with
  | named name loc => rfl
  | array element loc ih => rw [relocate, ih, id]
  | map key value loc ihkey ihvalue => rw [relocate, ihkey, ihvalue, id]

theorem TypedName.relocate_id (p : TypedName) : p.relocate id = p := by
  rw [relocate, p.type.relocate_id]
  rfl

theorem Params.relocate_id (p : Params) : p.relocate id = p := by
  cases p with
  | plain names => rw [relocate, Name.map_relocate_id]
  | typed params =>
    rw [relocate, funext TypedName.relocate_id]
    exact congrArg Params.typed (List.map_id params)

theorem VariantDecl.relocate_id (v : VariantDecl) : v.relocate id = v := rfl

theorem TypeExpr.map_relocate_id (types : List TypeExpr) :
    types.map (TypeExpr.relocate id) = types := by
  rw [funext TypeExpr.relocate_id]
  exact List.map_id types

/-- A declaration need not name a type. -/
theorem TypeExpr.option_relocate_id (type : Option TypeExpr) :
    type.map (TypeExpr.relocate id) = type := by
  rw [funext TypeExpr.relocate_id]
  exact Option.map_id_apply

mutual

/-- By recursion on the tree, as in `relocate` itself. -/
theorem Expr.relocate_id : (e : Expr) → e.relocate id = e
  | .name _ | .int .. | .float .. | .str .. | .bool .. => rfl
  | .unary _ right _ => by rw [Expr.relocate, right.relocate_id, id]
  | .binary left _ right _ => by
    rw [Expr.relocate, left.relocate_id, right.relocate_id, id]
  | .step _ target _ => by rw [Expr.relocate, target.relocate_id, id]
  | .assign target _ value _ => by
    rw [Expr.relocate, target.relocate_id, value.relocate_id, id]
  | .branch condition consequence alternative _ => by
    rw [Expr.relocate, condition.relocate_id, consequence.relocate_id,
      relocateBlock?_id alternative, id]
  | .function f => by rw [Expr.relocate, f.relocate_id]
  | .arrow params body _ => by
    rw [Expr.relocate, Name.map_relocate_id, body.relocate_id, id]
  | .call callee args _ => by
    rw [Expr.relocate, callee.relocate_id, relocateExprs_id args, id]
  | .array elements _ => by rw [Expr.relocate, relocateExprs_id elements, id]
  | .index left index _ => by
    rw [Expr.relocate, left.relocate_id, index.relocate_id, id]
  | .slice left start stop _ => by
    rw [Expr.relocate, left.relocate_id, relocateExpr?_id start,
      relocateExpr?_id stop, id]
  | .spread value _ => by rw [Expr.relocate, value.relocate_id, id]
  | .map entries _ => by rw [Expr.relocate, relocateEntries_id entries, id]
  | .member object _ _ => by
    rw [Expr.relocate, object.relocate_id, Name.relocate_id, id]
  | .record _ fields _ => by
    rw [Expr.relocate, relocateFields_id fields, Name.relocate_id, id]
  | .whileLoop condition body _ => by
    rw [Expr.relocate, condition.relocate_id, body.relocate_id, id]
  | .forLoop header body _ => by
    rw [Expr.relocate, header.relocate_id, body.relocate_id, id]
  | .switch subject cases default _ => by
    rw [Expr.relocate, subject.relocate_id, relocateCases_id cases,
      relocateBlock?_id default, id]
  | .ternary condition consequence alternative _ => by
    rw [Expr.relocate, condition.relocate_id, consequence.relocate_id,
      alternative.relocate_id, id]
  | .range start stop _ => by
    rw [Expr.relocate, start.relocate_id, stop.relocate_id, id]
  | .attempt t => by rw [Expr.relocate, t.relocate_id]
termination_by structural e => e

theorem Entry.relocate_id : (e : Entry) → e.relocate id = e
  | ⟨key, value⟩ => by
    rw [Entry.relocate, key.relocate_id, value.relocate_id]
termination_by structural e => e

theorem Field.relocate_id : (f : Field) → f.relocate id = f
  | ⟨_, value⟩ => by rw [Field.relocate, value.relocate_id, Name.relocate_id]
termination_by structural f => f

theorem LoopHeader.relocate_id : (h : LoopHeader) → h.relocate id = h
  | .items _ iterable => by
    rw [LoopHeader.relocate, iterable.relocate_id, Name.relocate_id]
  | .pairs _ _ iterable => by
    rw [LoopHeader.relocate, iterable.relocate_id, Name.relocate_id,
      Name.relocate_id]
  | .counting start condition update => by
    rw [LoopHeader.relocate, relocateStmt?_id start,
      relocateExpr?_id condition, relocateExpr?_id update]
termination_by structural h => h

theorem Case.relocate_id : (c : Case) → c.relocate id = c
  | ⟨values, body, _⟩ => by
    rw [Case.relocate, relocateExprs_id values, body.relocate_id, id]
termination_by structural c => c

theorem Attempt.relocate_id : (t : Attempt) → t.relocate id = t
  | ⟨body, param, handler, _⟩ => by
    rw [Attempt.relocate, body.relocate_id, relocateBlock?_id handler,
      funext Name.relocate_id, id]
    exact congrArg (Attempt.mk body · handler _) Option.map_id_apply
termination_by structural t => t

theorem Function.relocate_id : (f : Function) → f.relocate id = f
  | ⟨_, params, returns, body, _⟩ => by
    rw [Function.relocate, params.relocate_id, TypeExpr.map_relocate_id,
      body.relocate_id, id]
termination_by structural f => f

theorem Block.relocate_id : (b : Block) → b.relocate id = b
  | ⟨statements, _⟩ => by
    rw [Block.relocate, relocateStmts_id statements, id]
termination_by structural b => b

theorem Stmt.relocate_id : (s : Stmt) → s.relocate id = s
  | .bind _ _ type value _ => by
    rw [Stmt.relocate, TypeExpr.option_relocate_id, value.relocate_id,
      Name.relocate_id, id]
  | .ret value _ => by rw [Stmt.relocate, relocateExpr?_id value, id]
  | .includes .. | .brk _ | .cont _ => rfl
  | .attempt t => by rw [Stmt.relocate, t.relocate_id]
  | .struct _ fields _ => by
    rw [Stmt.relocate, Name.map_relocate_id, Name.relocate_id, id]
  | .enum _ variants _ => by
    rw [Stmt.relocate, funext VariantDecl.relocate_id, Name.relocate_id, id]
    exact congrArg (Stmt.enum _ · _) (List.map_id variants)
  | .method _ f _ => by
    rw [Stmt.relocate, f.relocate_id, Name.relocate_id, id]
  | .expr e _ => by rw [Stmt.relocate, e.relocate_id, id]
termination_by structural s => s

/-- The lists of the recursion, item by item. -/
theorem relocateExprs_id : (es : List Expr) → relocateExprs id es = es
  | [] => rfl
  | e :: rest => by rw [relocateExprs, e.relocate_id, relocateExprs_id rest]
termination_by structural es => es

theorem relocateEntries_id : (es : List Entry) → relocateEntries id es = es
  | [] => rfl
  | e :: rest => by
    rw [relocateEntries, e.relocate_id, relocateEntries_id rest]
termination_by structural es => es

theorem relocateFields_id : (fs : List Field) → relocateFields id fs = fs
  | [] => rfl
  | f :: rest => by rw [relocateFields, f.relocate_id, relocateFields_id rest]
termination_by structural fs => fs

theorem relocateCases_id : (cs : List Case) → relocateCases id cs = cs
  | [] => rfl
  | c :: rest => by rw [relocateCases, c.relocate_id, relocateCases_id rest]
termination_by structural cs => cs

theorem relocateStmts_id : (ss : List Stmt) → relocateStmts id ss = ss
  | [] => rfl
  | s :: rest => by rw [relocateStmts, s.relocate_id, relocateStmts_id rest]
termination_by structural ss => ss

theorem relocateExpr?_id : (e : Option Expr) → relocateExpr? id e = e
  | none => rfl
  | some e => by rw [relocateExpr?, e.relocate_id]
termination_by structural e => e

theorem relocateStmt?_id : (s : Option Stmt) → relocateStmt? id s = s
  | none => rfl
  | some s => by rw [relocateStmt?, s.relocate_id]
termination_by structural s => s

theorem relocateBlock?_id : (b : Option Block) → relocateBlock? id b = b
  | none => rfl
  | some b => by rw [relocateBlock?, b.relocate_id]
termination_by structural b => b

end

/-- A program that is not moved stays the same. -/
theorem Program.relocate_id (p : Program) : p.relocate id = p := by
  rw [Program.relocate, ← relocateStmts_eq_map, relocateStmts_id]
  rfl

/-! ### Everything is moved to one place -/

/-- Where a bare tree has all its locations. -/
def Location.nowhere (_ : Location) : Location := default

open Location (nowhere)

/-- Where all places become one, a type keeps what it says. -/
theorem TypeExpr.relocate_nowhere (t : TypeExpr) :
    t.relocate nowhere = t.bare := by
  induction t with
  | named name loc => rfl
  | array element loc ih => rw [relocate, ih, bare, nowhere]
  | map key value loc ihkey ihvalue =>
    rw [relocate, ihkey, ihvalue, bare, nowhere]

theorem TypedName.relocate_nowhere (p : TypedName) :
    p.relocate nowhere = p.bare := by
  rw [relocate, p.type.relocate_nowhere]
  rfl

/-- Plain parameters are bare by definition, typed ones by their types. -/
theorem Params.relocate_nowhere (p : Params) :
    p.relocate nowhere = p.bare := by
  cases p with
  | plain names => rfl
  | typed params =>
    rw [relocate, funext TypedName.relocate_nowhere, bare]

mutual

/-- By recursion on the tree.  The cases with a name in them close by `rfl`, since a
name is bare by definition once it is moved to no place. -/
theorem Expr.relocate_nowhere : (e : Expr) → e.relocate nowhere = e.bare
  | .name _ | .int .. | .float .. | .str .. | .bool .. => rfl
  | .unary _ right _ => by
    rw [Expr.relocate, right.relocate_nowhere, Expr.bare, nowhere]
  | .binary left _ right _ => by
    rw [Expr.relocate, left.relocate_nowhere, right.relocate_nowhere,
      Expr.bare, nowhere]
  | .step _ target _ => by
    rw [Expr.relocate, target.relocate_nowhere, Expr.bare, nowhere]
  | .assign target _ value _ => by
    rw [Expr.relocate, target.relocate_nowhere, value.relocate_nowhere,
      Expr.bare, nowhere]
  | .branch condition consequence alternative _ => by
    rw [Expr.relocate, condition.relocate_nowhere,
      consequence.relocate_nowhere, relocateBlock?_nowhere alternative,
      Expr.bare, nowhere]
  | .function f => by rw [Expr.relocate, f.relocate_nowhere, Expr.bare]
  | .arrow _ body _ => by
    rw [Expr.relocate, body.relocate_nowhere, Expr.bare, nowhere]
    rfl
  | .call callee args _ => by
    rw [Expr.relocate, callee.relocate_nowhere, relocateExprs_nowhere args,
      Expr.bare, nowhere]
  | .array elements _ => by
    rw [Expr.relocate, relocateExprs_nowhere elements, Expr.bare, nowhere]
  | .index left index _ => by
    rw [Expr.relocate, left.relocate_nowhere, index.relocate_nowhere,
      Expr.bare, nowhere]
  | .slice left start stop _ => by
    rw [Expr.relocate, left.relocate_nowhere, relocateExpr?_nowhere start,
      relocateExpr?_nowhere stop, Expr.bare, nowhere]
  | .spread value _ => by
    rw [Expr.relocate, value.relocate_nowhere, Expr.bare, nowhere]
  | .map entries _ => by
    rw [Expr.relocate, relocateEntries_nowhere entries, Expr.bare, nowhere]
  | .member object _ _ => by
    rw [Expr.relocate, object.relocate_nowhere, Expr.bare, nowhere]
    rfl
  | .record _ fields _ => by
    rw [Expr.relocate, relocateFields_nowhere fields, Expr.bare, nowhere]
    rfl
  | .whileLoop condition body _ => by
    rw [Expr.relocate, condition.relocate_nowhere, body.relocate_nowhere,
      Expr.bare, nowhere]
  | .forLoop header body _ => by
    rw [Expr.relocate, header.relocate_nowhere, body.relocate_nowhere,
      Expr.bare, nowhere]
  | .switch subject cases default _ => by
    rw [Expr.relocate, subject.relocate_nowhere,
      relocateCases_nowhere cases, relocateBlock?_nowhere default,
      Expr.bare, nowhere]
  | .ternary condition consequence alternative _ => by
    rw [Expr.relocate, condition.relocate_nowhere,
      consequence.relocate_nowhere, alternative.relocate_nowhere, Expr.bare,
      nowhere]
  | .range start stop _ => by
    rw [Expr.relocate, start.relocate_nowhere, stop.relocate_nowhere,
      Expr.bare, nowhere]
  | .attempt t => by rw [Expr.relocate, t.relocate_nowhere, Expr.bare]
termination_by structural e => e

theorem Entry.relocate_nowhere : (e : Entry) → e.relocate nowhere = e.bare
  | ⟨key, value⟩ => by
    rw [Entry.relocate, key.relocate_nowhere, value.relocate_nowhere,
      Entry.bare]
termination_by structural e => e

theorem Field.relocate_nowhere : (f : Field) → f.relocate nowhere = f.bare
  | ⟨_, value⟩ => by
    rw [Field.relocate, value.relocate_nowhere, Field.bare]
    rfl
termination_by structural f => f

theorem LoopHeader.relocate_nowhere : (h : LoopHeader) →
    h.relocate nowhere = h.bare
  | .items _ iterable => by
    rw [LoopHeader.relocate, iterable.relocate_nowhere, LoopHeader.bare]
    rfl
  | .pairs _ _ iterable => by
    rw [LoopHeader.relocate, iterable.relocate_nowhere, LoopHeader.bare]
    rfl
  | .counting start condition update => by
    rw [LoopHeader.relocate, relocateStmt?_nowhere start,
      relocateExpr?_nowhere condition, relocateExpr?_nowhere update,
      LoopHeader.bare]
termination_by structural h => h

theorem Case.relocate_nowhere : (c : Case) → c.relocate nowhere = c.bare
  | ⟨values, body, _⟩ => by
    rw [Case.relocate, relocateExprs_nowhere values, body.relocate_nowhere,
      Case.bare, nowhere]
termination_by structural c => c

theorem Attempt.relocate_nowhere : (t : Attempt) →
    t.relocate nowhere = t.bare
  | ⟨body, _, handler, _⟩ => by
    rw [Attempt.relocate, body.relocate_nowhere,
      relocateBlock?_nowhere handler, Attempt.bare, nowhere]
    rfl
termination_by structural t => t

theorem Function.relocate_nowhere : (f : Function) →
    f.relocate nowhere = f.bare
  | ⟨_, params, returns, body, _⟩ => by
    rw [Function.relocate, params.relocate_nowhere,
      funext TypeExpr.relocate_nowhere, body.relocate_nowhere, Function.bare,
      nowhere]
termination_by structural f => f

theorem Block.relocate_nowhere : (b : Block) → b.relocate nowhere = b.bare
  | ⟨statements, _⟩ => by
    rw [Block.relocate, relocateStmts_nowhere statements, Block.bare, nowhere]
termination_by structural b => b

theorem Stmt.relocate_nowhere : (s : Stmt) → s.relocate nowhere = s.bare
  | .bind _ _ type value _ => by
    rw [Stmt.relocate, funext TypeExpr.relocate_nowhere,
      value.relocate_nowhere, Stmt.bare, nowhere]
    rfl
  | .ret value _ => by
    rw [Stmt.relocate, relocateExpr?_nowhere value, Stmt.bare, nowhere]
  | .includes .. | .struct .. | .enum .. | .brk _ | .cont _ => rfl
  | .attempt t => by rw [Stmt.relocate, t.relocate_nowhere, Stmt.bare]
  | .method _ f _ => by
    rw [Stmt.relocate, f.relocate_nowhere, Stmt.bare, nowhere]
    rfl
  | .expr e _ => by
    rw [Stmt.relocate, e.relocate_nowhere, Stmt.bare, nowhere]
termination_by structural s => s

/-- The lists of the recursion, item by item. -/
theorem relocateExprs_nowhere : (es : List Expr) →
    relocateExprs nowhere es = bareExprs es
  | [] => rfl
  | e :: rest => by
    rw [relocateExprs, e.relocate_nowhere, relocateExprs_nowhere rest,
      bareExprs]
termination_by structural es => es

theorem relocateEntries_nowhere : (es : List Entry) →
    relocateEntries nowhere es = bareEntries es
  | [] => rfl
  | e :: rest => by
    rw [relocateEntries, e.relocate_nowhere, relocateEntries_nowhere rest,
      bareEntries]
termination_by structural es => es

theorem relocateFields_nowhere : (fs : List Field) →
    relocateFields nowhere fs = bareFields fs
  | [] => rfl
  | f :: rest => by
    rw [relocateFields, f.relocate_nowhere, relocateFields_nowhere rest,
      bareFields]
termination_by structural fs => fs

theorem relocateCases_nowhere : (cs : List Case) →
    relocateCases nowhere cs = bareCases cs
  | [] => rfl
  | c :: rest => by
    rw [relocateCases, c.relocate_nowhere, relocateCases_nowhere rest,
      bareCases]
termination_by structural cs => cs

theorem relocateStmts_nowhere : (ss : List Stmt) →
    relocateStmts nowhere ss = bareStmts ss
  | [] => rfl
  | s :: rest => by
    rw [relocateStmts, s.relocate_nowhere, relocateStmts_nowhere rest,
      bareStmts]
termination_by structural ss => ss

theorem relocateExpr?_nowhere : (e : Option Expr) →
    relocateExpr? nowhere e = bareExpr? e
  | none => rfl
  | some e => by rw [relocateExpr?, e.relocate_nowhere, bareExpr?]
termination_by structural e => e

theorem relocateStmt?_nowhere : (s : Option Stmt) →
    relocateStmt? nowhere s = bareStmt? s
  | none => rfl
  | some s => by rw [relocateStmt?, s.relocate_nowhere, bareStmt?]
termination_by structural s => s

theorem relocateBlock?_nowhere : (b : Option Block) →
    relocateBlock? nowhere b = bareBlock? b
  | none => rfl
  | some b => by rw [relocateBlock?, b.relocate_nowhere, bareBlock?]
termination_by structural b => b

end

/-- To move a program to one place takes all places out of it. -/
theorem Program.relocate_nowhere (p : Program) : p.relocate nowhere = p.bare := by
  rw [Program.relocate, ← relocateStmts_eq_map, relocateStmts_nowhere]
  rfl

end Script
