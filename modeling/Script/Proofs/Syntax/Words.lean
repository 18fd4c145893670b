import Mathlib.Algebra.BigOperators.Group.Multiset.Basic
import Script.Number.Numeral
import Script.Proofs.Token.Proper
import Script.Syntax.Tree

/-!
# The words of a program

The words of a text are its names, literals and names of types, and the word `default`.
The words of a tree are those that it has been made of.  Both are multisets, because a
tree does not keep the order of the cases and the default of a `switch`.
-/

namespace Script

/-- A name, a literal, or the word in front of the default of a `switch`.  The sign of
an integer is no part of it. -/
inductive Word where
  | name (text : String)
  | text (value : String)
  | int (value : Nat)
  | float (literal : String)
  | bool (value : Bool)
  | default
  deriving DecidableEq

/-! ### Tokens -/

/-- Whether tokens of this kind are words. -/
def Token.Kind.isWord : Token.Kind → Bool
  | ident | str | int | float | trueWord | falseWord | defaultWord => true
  | kind => kind.isType

/-- The word that a token is, if it is one. -/
def Token.words (t : Token) : Multiset Word :=
  match t.kind with
  | .str => {.text t.text}
  | .int => {.int (Numeral.valueFrom 0 t.text.toList)}
  | .float => {.float t.text}
  | .trueWord => {.bool true}
  | .falseWord => {.bool false}
  | .defaultWord => {.default}
  | kind => if kind.isWord then {.name t.text} else 0

/-- The words of a list of tokens. -/
def wordsOfTokens (tokens : List Token) : Multiset Word := (tokens.map Token.words).sum

theorem wordsOfTokens_cons (t : Token) (tokens : List Token) :
    wordsOfTokens (t :: tokens) = t.words + wordsOfTokens tokens := by
  rw [wordsOfTokens, List.map_cons, List.sum_cons]
  rfl

theorem Token.words_eq_zero {t : Token} (h : t.kind.isWord = false) : t.words = 0 := by
  unfold words
  cases hkind : t.kind <;> rw [hkind] at h <;> first | rfl | cases h

theorem Token.words_of_name {t : Token} (h : t.kind = .ident ∨ t.kind.isType = true) :
    t.words = {.name t.text} := by
  unfold words
  rcases h with hident | htype
  · rw [hident]
    rfl
  · cases hkind : t.kind <;> rw [hkind] at htype <;> first | rfl | cases htype

/-! ### Names and types -/

def Name.words (n : Name) : Multiset Word := {.name n.text}

/-- The brackets of an array type are no name. -/
def TypeExpr.words : TypeExpr → Multiset Word
  | .named name _ => {.name name}
  | .array element _ => element.words
  | .map key value _ => {.name "map"} + key.words + value.words

def wordsOfType? (type : Option TypeExpr) : Multiset Word :=
  (type.map TypeExpr.words).getD 0

/-- A parameter whose type stands where its name does was written without one. -/
def TypedName.words (p : TypedName) : Multiset Word :=
  p.name.words + if p.type = .named "any" p.name.loc then 0 else p.type.words

def Params.words : Params → Multiset Word
  | .plain names => (names.map Name.words).sum
  | .typed params => (params.map TypedName.words).sum

def wordsOfInt (n : Int64) : Multiset Word := {.int n.toInt.natAbs}

def VariantDecl.words (v : VariantDecl) : Multiset Word :=
  v.name.words + (v.value.map wordsOfInt).getD 0

/-- Whether the value of a variable is a function that the same words declare. -/
def Expr.isDefinition (loc : Location) : Expr → Bool
  | .function f => f.loc = loc
  | _ => false

def wordsOfName? (name : Option String) : Multiset Word :=
  (name.map fun text => {.name text}).getD 0

/-! ### Trees -/

mutual

def Expr.words : Expr → Multiset Word
  | .name id => id.words
  | .int value _ => wordsOfInt value
  | .float literal _ => {.float literal}
  | .str value _ => {.text value}
  | .bool value _ => {.bool value}
  | .unary _ right _ => right.words
  | .binary left _ right _ => left.words + right.words
  | .step _ target _ => target.words
  | .assign target _ value _ => target.words + value.words
  | .branch condition consequence alternative _ =>
    condition.words + consequence.words + wordsOfBlock? alternative
  | .function f => f.words
  | .arrow params body _ => (params.map Name.words).sum + body.words
  | .call callee args _ => callee.words + wordsOfExprs args
  | .array elements _ => wordsOfExprs elements
  | .index left index _ => left.words + index.words
  | .slice left start stop _ =>
    left.words + wordsOfExpr? start + wordsOfExpr? stop
  | .spread value _ => value.words
  | .map entries _ => wordsOfEntries entries
  | .member object property _ => object.words + property.words
  | .record struct fields _ => struct.words + wordsOfFields fields
  | .whileLoop condition body _ => condition.words + body.words
  | .forLoop header body _ => header.words + body.words
  | .switch subject cases default _ =>
    subject.words + wordsOfCases cases + wordsOfDefault default
  | .ternary condition consequence alternative _ =>
    condition.words + consequence.words + alternative.words
  | .range start stop _ => start.words + stop.words
  | .attempt t => t.words
termination_by structural e => e

def Function.words : Function → Multiset Word
  | ⟨name, params, returns, body, _⟩ =>
    wordsOfName? name + (params.words + (returns.map TypeExpr.words).sum + body.words)
termination_by structural f => f

def Block.words : Block → Multiset Word
  | ⟨statements, _⟩ => wordsOfStmts statements
termination_by structural b => b

def LoopHeader.words : LoopHeader → Multiset Word
  | .items item iterable => item.words + iterable.words
  | .pairs index value iterable => index.words + value.words + iterable.words
  | .counting start condition update =>
    wordsOfStmt? start + wordsOfExpr? condition + wordsOfExpr? update
termination_by structural h => h

def Entry.words : Entry → Multiset Word
  | ⟨key, value⟩ => key.words + value.words
termination_by structural e => e

def Field.words : Field → Multiset Word
  | ⟨name, value⟩ => name.words + value.words
termination_by structural f => f

def Case.words : Case → Multiset Word
  | ⟨values, body, _⟩ => wordsOfExprs values + body.words
termination_by structural c => c

def Attempt.words : Attempt → Multiset Word
  | ⟨body, param, handler, _⟩ =>
    body.words + (param.map Name.words).getD 0 + wordsOfBlock? handler
termination_by structural t => t

/-- A definition has its name in the function. -/
def Stmt.words : Stmt → Multiset Word
  | .bind _ name type value loc =>
    (if value.isDefinition loc then 0 else name.words) + wordsOfType? type + value.words
  | .ret value _ => wordsOfExpr? value
  | .includes modules _ _ => (modules.map fun module => {.text module}).sum
  | .attempt t => t.words
  | .struct name fields _ => name.words + (fields.map Name.words).sum
  | .enum name variants _ => name.words + (variants.map VariantDecl.words).sum
  | .method struct f _ => struct.words + f.words
  | .brk _ | .cont _ => 0
  | .expr e _ => e.words
termination_by structural s => s

def wordsOfExprs : List Expr → Multiset Word
  | [] => 0
  | e :: rest => e.words + wordsOfExprs rest
termination_by structural es => es

def wordsOfEntries : List Entry → Multiset Word
  | [] => 0
  | e :: rest => e.words + wordsOfEntries rest
termination_by structural es => es

def wordsOfFields : List Field → Multiset Word
  | [] => 0
  | f :: rest => f.words + wordsOfFields rest
termination_by structural fs => fs

def wordsOfCases : List Case → Multiset Word
  | [] => 0
  | c :: rest => c.words + wordsOfCases rest
termination_by structural cs => cs

def wordsOfStmts : List Stmt → Multiset Word
  | [] => 0
  | s :: rest => s.words + wordsOfStmts rest
termination_by structural ss => ss

def wordsOfExpr? : Option Expr → Multiset Word
  | none => 0
  | some e => e.words
termination_by structural e => e

def wordsOfStmt? : Option Stmt → Multiset Word
  | none => 0
  | some s => s.words
termination_by structural s => s

def wordsOfBlock? : Option Block → Multiset Word
  | none => 0
  | some b => b.words
termination_by structural b => b

/-- The default of a `switch` is the word `default` and a block. -/
def wordsOfDefault : Option Block → Multiset Word
  | none => 0
  | some b => {.default} + b.words
termination_by structural b => b

end

def Program.words (p : Program) : Multiset Word := wordsOfStmts p.statements

/-! ### Lists -/

theorem wordsOfExprs_eq_sum (es : List Expr) :
    wordsOfExprs es = (es.map Expr.words).sum := by
  induction es with
  | nil => rfl
  | cons e es ih => rw [wordsOfExprs, ih, List.map_cons, List.sum_cons]

theorem wordsOfEntries_eq_sum (es : List Entry) :
    wordsOfEntries es = (es.map Entry.words).sum := by
  induction es with
  | nil => rfl
  | cons e es ih => rw [wordsOfEntries, ih, List.map_cons, List.sum_cons]

theorem wordsOfFields_eq_sum (fs : List Field) :
    wordsOfFields fs = (fs.map Field.words).sum := by
  induction fs with
  | nil => rfl
  | cons f fs ih => rw [wordsOfFields, ih, List.map_cons, List.sum_cons]

theorem wordsOfCases_eq_sum (cs : List Case) :
    wordsOfCases cs = (cs.map Case.words).sum := by
  induction cs with
  | nil => rfl
  | cons c cs ih => rw [wordsOfCases, ih, List.map_cons, List.sum_cons]

theorem wordsOfStmts_eq_sum (ss : List Stmt) :
    wordsOfStmts ss = (ss.map Stmt.words).sum := by
  induction ss with
  | nil => rfl
  | cons s ss ih => rw [wordsOfStmts, ih, List.map_cons, List.sum_cons]

/-- The words of a list do not depend on its order. -/
theorem sum_map_reverse {α : Type} (words : α → Multiset Word) (xs : List α) :
    (xs.reverse.map words).sum = (xs.map words).sum :=
  ((List.reverse_perm xs).map words).sum_eq

end Script
