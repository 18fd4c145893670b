import Script.Source.Location

/-!
# Syntax trees

The tree of a program.  Every node carries the region of source that it was
read from.
-/

namespace Script

/-! ### Operators -/

inductive PrefixOp where
  | minus | not | increment | decrement
  deriving DecidableEq, Repr, Inhabited

def PrefixOp.text : PrefixOp → String
  | minus => "-"
  | not => "!"
  | increment => "++"
  | decrement => "--"

inductive BinaryOp where
  | add | sub | mul | div | mod
  | lt | gt | le | ge | eq | ne
  | and | or
  deriving DecidableEq, Repr, Inhabited

def BinaryOp.text : BinaryOp → String
  | add => "+"
  | sub => "-"
  | mul => "*"
  | div => "/"
  | mod => "%"
  | lt => "<"
  | gt => ">"
  | le => "<="
  | ge => ">="
  | eq => "=="
  | ne => "!="
  | and => "&&"
  | or => "||"

/-- Operators behind their operand, which step a counter. -/
inductive StepOp where
  | increment | decrement
  deriving DecidableEq, Repr, Inhabited

def StepOp.text : StepOp → String
  | increment => "++"
  | decrement => "--"

inductive AssignOp where
  | assign | add | sub | mul | div | mod
  deriving DecidableEq, Repr, Inhabited

def AssignOp.text : AssignOp → String
  | assign => "="
  | add => "+="
  | sub => "-="
  | mul => "*="
  | div => "/="
  | mod => "%="

/-- The arithmetic that a compound assignment performs. -/
def AssignOp.binary? : AssignOp → Option BinaryOp
  | assign => none
  | add => some .add
  | sub => some .sub
  | mul => some .mul
  | div => some .div
  | mod => some .mod

/-! ### Names and types -/

structure Name where
  text : String
  loc : Location
  deriving DecidableEq, Repr, Inhabited

/-- A type annotation: a name, `[]T` or `map[K]V`. -/
inductive TypeExpr where
  | named (name : String) (loc : Location)
  | array (element : TypeExpr) (loc : Location)
  | map (key value : TypeExpr) (loc : Location)
  deriving DecidableEq, Repr, Inhabited

namespace TypeExpr

def loc : TypeExpr → Location
  | named _ loc | array _ loc | map _ _ loc => loc

/-- The type of everything. -/
def isAny : TypeExpr → Bool
  | named name _ => name == "any"
  | _ => false

def isMap : TypeExpr → Bool
  | map .. => true
  | _ => false

/-- The type of the elements of an array or of the values of a map. -/
def element? : TypeExpr → Option TypeExpr
  | named .. => none
  | array element _ => some element
  | map _ value _ => some value

end TypeExpr

structure TypedName where
  name : Name
  type : TypeExpr
  deriving DecidableEq, Repr, Inhabited

/-- The parameters of a function: either none of them has a type, or all of
them do. -/
inductive Params where
  | plain (names : List Name)
  | typed (params : List TypedName)
  deriving DecidableEq, Repr, Inhabited

def Params.names : Params → List Name
  | plain names => names
  | typed params => params.map (·.name)

def Params.count : Params → Nat
  | plain names => names.length
  | typed params => params.length

/-- A variant of an enumeration, with its number if one is given. -/
structure VariantDecl where
  name : Name
  value : Option Int64
  deriving DecidableEq, Repr, Inhabited

/-! ### Expressions and statements -/

mutual

inductive Expr where
  | name (id : Name)
  | int (value : Int64) (loc : Location)
  | float (literal : String) (loc : Location)
  | str (value : String) (loc : Location)
  | bool (value : Bool) (loc : Location)
  | unary (op : PrefixOp) (right : Expr) (loc : Location)
  | binary (left : Expr) (op : BinaryOp) (right : Expr) (loc : Location)
  | step (op : StepOp) (target : Expr) (loc : Location)
  | assign (target : Expr) (op : AssignOp) (value : Expr) (loc : Location)
  | branch (condition : Expr) (consequence : Block)
      (alternative : Option Block) (loc : Location)
  | function (f : Function)
  | arrow (params : List Name) (body : Expr) (loc : Location)
  | call (callee : Expr) (args : List Expr) (loc : Location)
  | array (elements : List Expr) (loc : Location)
  | index (left index : Expr) (loc : Location)
  | slice (left : Expr) (start stop : Option Expr) (loc : Location)
  | spread (value : Expr) (loc : Location)
  | map (entries : List Entry) (loc : Location)
  | member (object : Expr) (property : Name) (loc : Location)
  | record (struct : Name) (fields : List Field) (loc : Location)
  | whileLoop (condition : Expr) (body : Block) (loc : Location)
  | forLoop (header : LoopHeader) (body : Block) (loc : Location)
  | switch (subject : Expr) (cases : List Case) (default : Option Block)
      (loc : Location)
  | ternary (condition consequence alternative : Expr) (loc : Location)
  | range (start stop : Expr) (loc : Location)
  | attempt (t : Attempt)

/-- A key and a value of a map literal. -/
structure Entry where
  key : Expr
  value : Expr

/-- A field and its value where a struct is instantiated. -/
structure Field where
  name : Name
  value : Expr

/-- The header of a `for` loop: over the items of a collection, over its
indices and items, or counting by hand. -/
inductive LoopHeader where
  | items (item : Name) (iterable : Expr)
  | pairs (index value : Name) (iterable : Expr)
  | counting (start : Option Stmt) (condition update : Option Expr)

/-- One `case` of a switch; any of the values selects it. -/
structure Case where
  values : List Expr
  body : Block
  loc : Location

/-- A block whose errors are caught, with what to do about them. -/
structure Attempt where
  body : Block
  param : Option Name
  handler : Option Block
  loc : Location

/-- A function with a block for its body.  It has a name if one was written
behind `define`. -/
structure Function where
  name : Option String
  params : Params
  returns : List TypeExpr
  body : Block
  loc : Location

structure Block where
  statements : List Stmt
  loc : Location

inductive Stmt where
  | bind (constant : Bool) (name : Name) (type : Option TypeExpr) (value : Expr)
      (loc : Location)
  | ret (value : Option Expr) (loc : Location)
  | includes (modules : List String) (grouped : Bool) (loc : Location)
  | attempt (t : Attempt)
  | struct (name : Name) (fields : List Name) (loc : Location)
  | enum (name : Name) (variants : List VariantDecl) (loc : Location)
  | method (struct : Name) (f : Function) (loc : Location)
  | brk (loc : Location)
  | cont (loc : Location)
  | expr (e : Expr) (loc : Location)

end

instance : Inhabited Expr := ⟨.name default⟩
instance : Inhabited Block := ⟨⟨[], default⟩⟩
instance : Inhabited Stmt := ⟨.brk default⟩

def Expr.loc : Expr → Location
  | name id => id.loc
  | function f => f.loc
  | attempt t => t.loc
  | int _ loc | float _ loc | str _ loc | bool _ loc | unary _ _ loc
  | binary _ _ _ loc | step _ _ loc | assign _ _ _ loc | branch _ _ _ loc
  | arrow _ _ loc | call _ _ loc | array _ loc | index _ _ loc
  | slice _ _ _ loc | spread _ loc | map _ loc | member _ _ loc
  | record _ _ loc | whileLoop _ _ loc | forLoop _ _ loc | switch _ _ _ loc
  | ternary _ _ _ loc | range _ _ loc => loc

def Stmt.loc : Stmt → Location
  | attempt t => t.loc
  | bind _ _ _ _ loc | ret _ loc | includes _ _ loc | struct _ _ loc
  | enum _ _ loc | method _ _ loc | brk loc | cont loc | expr _ loc => loc

/-- A whole program. -/
structure Program where
  statements : List Stmt
  loc : Location
  deriving Inhabited

end Script
