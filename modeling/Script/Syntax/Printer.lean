import Script.Syntax.Tree
import Script.Syntax.Quote

/-!
# Printing trees as source

Printing puts every operator expression in parentheses, so that the text does
not depend on the precedence of the operators around it.
-/

namespace Script

namespace Syntax

def commaSeparated (items : List String) : String := ", ".intercalate items

/-- The text without the semicolons at its end. -/
def dropSemicolons (text : String) : String :=
  String.ofList (text.toList.reverse.dropWhile (· = ';')).reverse

end Syntax

open Syntax

/-- Types are printed as messages show them. -/
def TypeExpr.print : TypeExpr → String
  | named name _ => name
  | array element _ => "[]" ++ element.print
  | map key value _ => "map[" ++ key.print ++ "]" ++ value.print

def TypedName.print (p : TypedName) : String :=
  p.name.text ++ ": " ++ p.type.print

/-- Only typed parameters are printed with a type. -/
def Params.print (params : Params) : String :=
  "(" ++ commaSeparated (match params with
    | plain names => names.map (·.text)
    | typed params => params.map TypedName.print) ++ ")"

namespace Syntax

/-- The return types of a function, behind its parameters. -/
def printReturns : List TypeExpr → String
  | [] => ""
  | [single] => " -> " ++ single.print
  | several => " -> (" ++ commaSeparated (several.map TypeExpr.print) ++ ")"

end Syntax

def Syntax.printAnnotation : Option TypeExpr → String
  | some type => ": " ++ type.print
  | none => ""

def VariantDecl.print (v : VariantDecl) : String :=
  match v.value with
  | some n => v.name.text ++ " = " ++ toString n
  | none => v.name.text

mutual

/-- Operators are put into parentheses, whether these are needed or not. -/
def Expr.print : Expr → String
  | .name id => id.text
  | .int value _ => toString value
  | .float literal _ => literal
  | .str value _ => quote value
  | .bool value _ => if value then "true" else "false"
  | .unary op right _ => "(" ++ op.text ++ right.print ++ ")"
  | .binary left op right _ =>
    "(" ++ left.print ++ " " ++ op.text ++ " " ++ right.print ++ ")"
  | .step op target _ => "(" ++ target.print ++ op.text ++ ")"
  | .assign target op value _ =>
    "(" ++ target.print ++ " " ++ op.text ++ " " ++ value.print ++ ")"
  | .branch condition consequence alternative _ =>
    "if (" ++ condition.print ++ ") " ++ consequence.print ++
      printAlternative alternative
  | .function f => "define" ++ f.printTail
  | .arrow params body _ =>
    "((" ++ commaSeparated (params.map (·.text)) ++ ") => " ++ body.print ++ ")"
  | .call callee args _ =>
    callee.print ++ "(" ++ commaSeparated (printExprs args) ++ ")"
  | .array elements _ => "[" ++ commaSeparated (printExprs elements) ++ "]"
  | .index left index _ => "(" ++ left.print ++ "[" ++ index.print ++ "])"
  | .slice left start stop _ =>
    "(" ++ left.print ++ "[" ++ printOption start ++ ":" ++ printOption stop ++
      "])"
  | .spread value _ => "..." ++ value.print
  | .map entries _ =>
    "\x7b" ++ commaSeparated (printEntries entries) ++ "\x7d"
  | .member object property _ => object.print ++ "." ++ property.text
  | .record struct fields _ =>
    struct.text ++ " \x7b" ++ commaSeparated (printFields fields) ++ "\x7d"
  | .whileLoop condition body _ =>
    "while (" ++ condition.print ++ ") " ++ body.print
  | .forLoop header body _ =>
    "for (" ++ header.print ++ ") " ++ body.print
  | .switch subject cases default _ =>
    "switch (" ++ subject.print ++ ") \x7b " ++ printCases cases ++
      printDefault default ++ "\x7d"
  | .ternary condition consequence alternative _ =>
    "(" ++ condition.print ++ " ? " ++ consequence.print ++ " : " ++
      alternative.print ++ ")"
  | .range start stop _ => "(" ++ start.print ++ ".." ++ stop.print ++ ")"
  | .attempt t => t.print
termination_by structural e => e

/-- Parameters, return types and body. -/
def Function.printTail : Function → String
  | ⟨_, params, returns, body, _⟩ =>
    params.print ++ printReturns returns ++ " " ++ body.print
termination_by structural f => f

def Block.print : Block → String
  | ⟨statements, _⟩ => "\x7b " ++ printStatements statements ++ "\x7d"
termination_by structural b => b

/-- What stands between the parentheses of a loop. -/
def LoopHeader.print : LoopHeader → String
  | .items item iterable => item.text ++ " in " ++ iterable.print
  | .pairs index value iterable =>
    index.text ++ ", " ++ value.text ++ " in " ++ iterable.print
  | .counting start condition update =>
    printStart start ++ "; " ++ printOption condition ++ "; " ++
      printOption update
termination_by structural h => h

def Entry.print : Entry → String
  | ⟨key, value⟩ => key.print ++ ": " ++ value.print
termination_by structural e => e

def Field.print : Field → String
  | ⟨name, value⟩ => name.text ++ ": " ++ value.print
termination_by structural f => f

def Case.print : Case → String
  | ⟨values, body, _⟩ =>
    "case " ++ commaSeparated (printExprs values) ++ " " ++ body.print ++ " "
termination_by structural c => c

def Attempt.print : Attempt → String
  | ⟨body, param, handler, _⟩ =>
    "try " ++ body.print ++ printHandler param handler
termination_by structural t => t

/-- A variable that is bound to a function of its own name is printed as a definition.
-/
def Stmt.print : Stmt → String
  | .bind false name none (.function f) _ =>
    if f.name = some name.text then "define " ++ name.text ++ f.printTail
    else "let " ++ name.text ++ " = define" ++ f.printTail ++ ";"
  | .bind constant name type value _ =>
    (if constant then "const " else "let ") ++ name.text ++
      printAnnotation type ++ " = " ++ value.print ++ ";"
  | .ret value _ => printReturn value
  | .includes modules grouped _ =>
    "include " ++ (if grouped then "(" else "") ++
      commaSeparated (modules.map quote) ++ (if grouped then ")" else "") ++ ";"
  | .attempt t => t.print
  | .struct name fields _ =>
    "struct " ++ name.text ++ " \x7b " ++
      commaSeparated (fields.map (·.text)) ++ " \x7d"
  | .enum name variants _ =>
    "enum " ++ name.text ++ " \x7b " ++
      commaSeparated (variants.map VariantDecl.print) ++ " \x7d"
  | .method struct f _ =>
    "define " ++ struct.text ++ "." ++ f.name.getD "method" ++ f.printTail
  | .brk _ => "break;"
  | .cont _ => "continue;"
  | .expr e _ => e.print ++ ";"
termination_by structural s => s

def printExprs : List Expr → List String
  | [] => []
  | e :: rest => e.print :: printExprs rest
termination_by structural es => es

def printEntries : List Entry → List String
  | [] => []
  | e :: rest => e.print :: printEntries rest
termination_by structural es => es

def printFields : List Field → List String
  | [] => []
  | f :: rest => f.print :: printFields rest
termination_by structural fs => fs

def printCases : List Case → String
  | [] => ""
  | c :: rest => c.print ++ printCases rest
termination_by structural cs => cs

def printStatements : List Stmt → String
  | [] => ""
  | s :: rest => s.print ++ " " ++ printStatements rest
termination_by structural ss => ss

/-- A part that is absent is printed as nothing. -/
def printOption : Option Expr → String
  | none => ""
  | some e => e.print
termination_by structural e => e

def printReturn : Option Expr → String
  | none => "return;"
  | some e => "return " ++ e.print ++ ";"
termination_by structural e => e

/-- The first statement of a counting header, without its semicolon. -/
def printStart : Option Stmt → String
  | none => ""
  | some s => dropSemicolons s.print
termination_by structural s => s

/-- What follows the first block of a branch. -/
def printAlternative : Option Block → String
  | none => ""
  | some b => " else " ++ b.print
termination_by structural b => b

def printDefault : Option Block → String
  | none => ""
  | some b => "default " ++ b.print ++ " "
termination_by structural b => b

/-- What follows the body of a `try`. -/
def printHandler (param : Option Name) : Option Block → String
  | none => ""
  | some b =>
    " catch " ++ (match param with
      | some name => "(" ++ name.text ++ ") "
      | none => "") ++ b.print
termination_by structural b => b

end

/-- One statement a line. -/
def Program.print (program : Program) : String :=
  program.statements.foldl (fun text s => text ++ s.print ++ "\n") ""

end Script
