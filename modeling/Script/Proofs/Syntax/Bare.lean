import Script.Syntax.Tree

/-!
# Trees up to locations

Two trees that were read from different texts differ in their locations.  `bare`
takes the locations out of a tree, so trees are the same up to locations if they
are bare the same.
-/

namespace Script

/-- The name at no particular place. -/
def Name.bare (n : Name) : Name := { n with loc := default }

/-- A type without the places of the names in it. -/
def TypeExpr.bare : TypeExpr → TypeExpr
  | .named name _ => .named name default
  | .array element _ => .array element.bare default
  | .map key value _ => .map key.bare value.bare default

def TypedName.bare (p : TypedName) : TypedName :=
  { name := p.name.bare, type := p.type.bare }

/-- Parameters keep whether they are typed, even if there are none. -/
def Params.bare : Params → Params
  | .plain names => .plain (names.map Name.bare)
  | .typed params => .typed (params.map TypedName.bare)

/-- The fields of a variant are plain texts and have no place anyway. -/
def VariantDecl.bare (v : VariantDecl) : VariantDecl :=
  { v with name := v.name.bare }

mutual

/-- An expression with all that is in it, down to the bodies of functions. -/
def Expr.bare : Expr → Expr
  | .name id => .name id.bare
  | .int value _ => .int value default
  | .float literal _ => .float literal default
  | .str value _ => .str value default
  | .bool value _ => .bool value default
  | .unary op right _ => .unary op right.bare default
  | .binary left op right _ => .binary left.bare op right.bare default
  | .step op target _ => .step op target.bare default
  | .assign target op value _ => .assign target.bare op value.bare default
  | .branch condition consequence alternative _ =>
    .branch condition.bare consequence.bare (bareBlock? alternative) default
  | .function f => .function f.bare
  | .arrow params body _ => .arrow (params.map Name.bare) body.bare default
  | .call callee args _ => .call callee.bare (bareExprs args) default
  | .array elements _ => .array (bareExprs elements) default
  | .index left index _ => .index left.bare index.bare default
  | .slice left start stop _ =>
    .slice left.bare (bareExpr? start) (bareExpr? stop) default
  | .spread value _ => .spread value.bare default
  | .map entries _ => .map (bareEntries entries) default
  | .member object property _ => .member object.bare property.bare default
  | .record struct fields _ => .record struct.bare (bareFields fields) default
  | .whileLoop condition body _ => .whileLoop condition.bare body.bare default
  | .forLoop header body _ => .forLoop header.bare body.bare default
  | .switch subject cases default _ =>
    .switch subject.bare (bareCases cases) (bareBlock? default) Inhabited.default
  | .ternary condition consequence alternative _ =>
    .ternary condition.bare consequence.bare alternative.bare default
  | .range start stop _ => .range start.bare stop.bare default
  | .attempt t => .attempt t.bare
termination_by structural e => e

def Entry.bare : Entry → Entry
  | ⟨key, value⟩ => ⟨key.bare, value.bare⟩
termination_by structural e => e

def Field.bare : Field → Field
  | ⟨name, value⟩ => ⟨name.bare, value.bare⟩
termination_by structural f => f

/-- The header of a loop has no place of its own, only its parts have. -/
def LoopHeader.bare : LoopHeader → LoopHeader
  | .items item iterable => .items item.bare iterable.bare
  | .pairs index value iterable => .pairs index.bare value.bare iterable.bare
  | .counting start condition update =>
    .counting (bareStmt? start) (bareExpr? condition) (bareExpr? update)
termination_by structural h => h

def Case.bare : Case → Case
  | ⟨values, body, _⟩ => ⟨bareExprs values, body.bare, default⟩
termination_by structural c => c

def Attempt.bare : Attempt → Attempt
  | ⟨body, param, handler, _⟩ =>
    ⟨body.bare, param.map Name.bare, bareBlock? handler, default⟩
termination_by structural t => t

/-- The name of a function is a plain text, so its code has one place only. -/
def Function.bare : Function → Function
  | ⟨name, params, returns, body, _⟩ =>
    ⟨name, params.bare, returns.map TypeExpr.bare, body.bare, default⟩
termination_by structural f => f

def Block.bare : Block → Block
  | ⟨statements, _⟩ => ⟨bareStmts statements, default⟩
termination_by structural b => b

/-- A statement without places.  The modules that it takes in are plain texts. -/
def Stmt.bare : Stmt → Stmt
  | .bind constant name type value _ =>
    .bind constant name.bare (type.map TypeExpr.bare) value.bare default
  | .ret value _ => .ret (bareExpr? value) default
  | .includes modules grouped _ => .includes modules grouped default
  | .attempt t => .attempt t.bare
  | .struct name fields _ => .struct name.bare (fields.map Name.bare) default
  | .enum name variants _ =>
    .enum name.bare (variants.map VariantDecl.bare) default
  | .method struct f _ => .method struct.bare f.bare default
  | .brk _ => .brk default
  | .cont _ => .cont default
  | .expr e _ => .expr e.bare default
termination_by structural s => s

/-- The recursion runs through lists of its own, so that it is structural. -/
def bareExprs : List Expr → List Expr
  | [] => []
  | e :: rest => e.bare :: bareExprs rest
termination_by structural es => es

def bareEntries : List Entry → List Entry
  | [] => []
  | e :: rest => e.bare :: bareEntries rest
termination_by structural es => es

def bareFields : List Field → List Field
  | [] => []
  | f :: rest => f.bare :: bareFields rest
termination_by structural fs => fs

def bareCases : List Case → List Case
  | [] => []
  | c :: rest => c.bare :: bareCases rest
termination_by structural cs => cs

def bareStmts : List Stmt → List Stmt
  | [] => []
  | s :: rest => s.bare :: bareStmts rest
termination_by structural ss => ss

/-- A part that is absent stays absent. -/
def bareExpr? : Option Expr → Option Expr
  | none => none
  | some e => some e.bare
termination_by structural e => e

def bareStmt? : Option Stmt → Option Stmt
  | none => none
  | some s => some s.bare
termination_by structural s => s

def bareBlock? : Option Block → Option Block
  | none => none
  | some b => some b.bare
termination_by structural b => b

end

/-- A program without places, which is what its code alone determines. -/
def Program.bare (p : Program) : Program :=
  { statements := bareStmts p.statements, loc := default }

/-- The lists of the recursion are the usual ones. -/
theorem bareExprs_eq_map (es : List Expr) : bareExprs es = es.map Expr.bare := by
  induction es with
  | nil => rfl
  | cons e es ih => rw [bareExprs, ih, List.map_cons]

theorem bareEntries_eq_map (es : List Entry) :
    bareEntries es = es.map Entry.bare := by
  induction es with
  | nil => rfl
  | cons e es ih => rw [bareEntries, ih, List.map_cons]

theorem bareFields_eq_map (fs : List Field) :
    bareFields fs = fs.map Field.bare := by
  induction fs with
  | nil => rfl
  | cons f fs ih => rw [bareFields, ih, List.map_cons]

theorem bareCases_eq_map (cs : List Case) : bareCases cs = cs.map Case.bare := by
  induction cs with
  | nil => rfl
  | cons c cs ih => rw [bareCases, ih, List.map_cons]

/-- The statements of a block stay as many, and in their order. -/
theorem bareStmts_eq_map (ss : List Stmt) : bareStmts ss = ss.map Stmt.bare := by
  induction ss with
  | nil => rfl
  | cons s ss ih => rw [bareStmts, ih, List.map_cons]

theorem bareExpr?_eq_map (e : Option Expr) : bareExpr? e = e.map Expr.bare := by
  cases e <;> rfl

end Script
