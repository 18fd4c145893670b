import Script.Proofs.Syntax.PrintedStatements

/-!
# Locations are not printed

The printed form of a tree depends on nothing but the bare tree.  So two trees
that are the same up to locations are printed alike.
-/

namespace Script

open Syntax (printReturns printAnnotation)

/-- The text of a type is made of its names. -/
theorem TypeExpr.print_bare (t : TypeExpr) : t.bare.print = t.print := by
  induction t with
  | named name loc => rfl
  | array element loc ih => simp only [bare, print, ih]
  | map key value loc ihkey ihvalue => simp only [bare, print, ihkey, ihvalue]

theorem Name.map_text_bare (names : List Name) :
    (names.map Name.bare).map (·.text) = names.map (·.text) := by
  rw [List.map_map]
  rfl

/-- Parameters are printed with their names and types. -/
theorem Params.print_bare (p : Params) : p.bare.print = p.print := by
  cases p with
  | plain names =>
    unfold bare print
    simp only [Name.map_text_bare]
  | typed params =>
    unfold bare print
    simp only [List.map_map]
    congr 3
    refine List.map_congr_left fun q _ => ?_
    simp only [Function.comp_apply, TypedName.print, TypedName.bare,
      TypeExpr.print_bare]
    rfl

/-- One type stands alone and several stand in parentheses, so the cases are those of
the printer. -/
theorem Syntax.printReturns_bare (types : List TypeExpr) :
    printReturns (types.map TypeExpr.bare) = printReturns types := by
  match types with
  | [] => rfl
  | [single] => simp only [List.map, printReturns, TypeExpr.print_bare]
  | a :: b :: rest =>
    have hprints : ∀ ts : List TypeExpr,
        (ts.map TypeExpr.bare).map TypeExpr.print = ts.map TypeExpr.print := by
      intro ts
      rw [List.map_map]
      exact List.map_congr_left fun t _ => t.print_bare
    have h := hprints (a :: b :: rest)
    simp only [List.map_cons] at h ⊢
    simp only [printReturns, List.map_cons]
    rw [h]

theorem Syntax.printAnnotation_bare (type : Option TypeExpr) :
    printAnnotation (type.map TypeExpr.bare) = printAnnotation type := by
  cases type with
  | none => rfl
  | some t => simp only [Option.map, printAnnotation, t.print_bare]

/-- A function keeps its name when its code is made bare. -/
theorem Function.name_bare (f : Function) : f.bare.name = f.name := by
  cases f
  rfl

/-- A variant is printed with its number, if it has one. -/
theorem VariantDecl.print_bare (v : VariantDecl) : v.bare.print = v.print := by
  unfold bare print
  cases v.value <;> rfl

theorem VariantDecl.map_print_bare (vs : List VariantDecl) :
    (vs.map VariantDecl.bare).map VariantDecl.print =
      vs.map VariantDecl.print := by
  rw [List.map_map]
  exact List.map_congr_left fun v _ => v.print_bare

/-- To be a function is no matter of locations. -/
theorem Expr.eq_function_of_bare {e : Expr} {f : Function}
    (h : e.bare = .function f) : ∃ f', e = .function f' ∧ f'.bare = f := by
  cases e
  case function f' => exact ⟨f', rfl, Expr.function.inj h⟩
  all_goals simp [Expr.bare] at h

/-- Whether a variable is printed as a definition depends on the name of the
function, which is no location. -/
theorem Stmt.print_bind_bare {constant : Bool} {name : Name}
    {type : Option TypeExpr} {value : Expr} {loc : Location}
    (hvalue : value.bare.print = value.print) :
    (Stmt.bind constant name type value loc).bare.print =
      (Stmt.bind constant name type value loc).print := by
  by_cases hdefines : constant = false ∧ type = none ∧
      ∃ f, value = .function f ∧ f.name = some name.text
  · obtain ⟨rfl, rfl, f, rfl, hname⟩ := hdefines
    have htail : f.bare.printTail = f.printTail :=
      String.append_right_inj "define" |>.mp hvalue
    have hname' : f.bare.name = some name.bare.text := by
      rw [f.name_bare]
      exact hname
    change (if f.bare.name = some name.bare.text then
        "define " ++ name.bare.text ++ f.bare.printTail else _) =
      (if f.name = some name.text then
        "define " ++ name.text ++ f.printTail else _)
    rw [if_pos hname, if_pos hname', htail]
    rfl
  · have hplain : constant = false → type = none →
        ∀ f, value = .function f → f.name ≠ some name.text :=
      fun hconstant htype f hf hname =>
        hdefines ⟨hconstant, htype, f, hf, hname⟩
    have hplain' : constant = false → type.map TypeExpr.bare = none →
        ∀ f, value.bare = .function f → f.name ≠ some name.bare.text := by
      intro hconstant htype f hf
      obtain ⟨f', hf', rfl⟩ := Expr.eq_function_of_bare hf
      rw [f'.name_bare]
      exact hplain hconstant (Option.map_eq_none_iff.mp htype) f' hf'
    rw [print_bind hplain, Stmt.bare, print_bind hplain',
      Syntax.printAnnotation_bare, hvalue]
    rfl

mutual

/-- By recursion on the tree, in the cases of the printer. -/
theorem Expr.print_bare : (e : Expr) → e.bare.print = e.print
  | .name id => rfl
  | .int value _ => rfl
  | .float literal _ => rfl
  | .str value _ => rfl
  | .bool value _ => rfl
  | .unary op right _ => by
    simp only [Expr.bare, Expr.print, right.print_bare]
  | .binary left op right _ => by
    simp only [Expr.bare, Expr.print, left.print_bare, right.print_bare]
  | .step op target _ => by
    simp only [Expr.bare, Expr.print, target.print_bare]
  | .assign target op value _ => by
    simp only [Expr.bare, Expr.print, target.print_bare, value.print_bare]
  | .branch condition consequence alternative _ => by
    simp only [Expr.bare, Expr.print, condition.print_bare,
      consequence.print_bare, printAlternative_bare alternative]
  | .function f => by
    simp only [Expr.bare, Expr.print, f.printTail_bare]
  | .arrow params body _ => by
    simp only [Expr.bare, Expr.print, Name.map_text_bare, body.print_bare]
  | .call callee args _ => by
    simp only [Expr.bare, Expr.print, callee.print_bare, printExprs_bare args]
  | .array elements _ => by
    simp only [Expr.bare, Expr.print, printExprs_bare elements]
  | .index left index _ => by
    simp only [Expr.bare, Expr.print, left.print_bare, index.print_bare]
  | .slice left start stop _ => by
    simp only [Expr.bare, Expr.print, left.print_bare, printOption_bare start,
      printOption_bare stop]
  | .spread value _ => by
    simp only [Expr.bare, Expr.print, value.print_bare]
  | .map entries _ => by
    simp only [Expr.bare, Expr.print, printEntries_bare entries]
  | .member object property _ => by
    simp only [Expr.bare, Expr.print, object.print_bare, Name.bare]
  | .record struct fields _ => by
    simp only [Expr.bare, Expr.print, printFields_bare fields, Name.bare]
  | .whileLoop condition body _ => by
    simp only [Expr.bare, Expr.print, condition.print_bare, body.print_bare]
  | .forLoop header body _ => by
    simp only [Expr.bare, Expr.print, header.print_bare, body.print_bare]
  | .switch subject cases default _ => by
    simp only [Expr.bare, Expr.print, subject.print_bare,
      printCases_bare cases, printDefault_bare default]
  | .ternary condition consequence alternative _ => by
    simp only [Expr.bare, Expr.print, condition.print_bare,
      consequence.print_bare, alternative.print_bare]
  | .range start stop _ => by
    simp only [Expr.bare, Expr.print, start.print_bare, stop.print_bare]
  | .attempt t => by
    simp only [Expr.bare, Expr.print, t.print_bare]
termination_by structural e => e

/-- What is printed behind the name of a function. -/
theorem Function.printTail_bare : (f : Function) →
    f.bare.printTail = f.printTail
  | ⟨_, params, returns, body, _⟩ => by
    simp only [Function.bare, Function.printTail, params.print_bare,
      Syntax.printReturns_bare, body.print_bare]
termination_by structural f => f

theorem Block.print_bare : (b : Block) → b.bare.print = b.print
  | ⟨statements, _⟩ => by
    simp only [Block.bare, Block.print, printStatements_bare statements]
termination_by structural b => b

theorem LoopHeader.print_bare : (h : LoopHeader) → h.bare.print = h.print
  | .items item iterable => by
    simp only [LoopHeader.bare, LoopHeader.print, iterable.print_bare, Name.bare]
  | .pairs index value iterable => by
    simp only [LoopHeader.bare, LoopHeader.print, iterable.print_bare, Name.bare]
  | .counting start condition update => by
    simp only [LoopHeader.bare, LoopHeader.print, printStart_bare start,
      printOption_bare condition, printOption_bare update]
termination_by structural h => h

theorem Entry.print_bare : (e : Entry) → e.bare.print = e.print
  | ⟨key, value⟩ => by
    simp only [Entry.bare, Entry.print, key.print_bare, value.print_bare]
termination_by structural e => e

theorem Field.print_bare : (f : Field) → f.bare.print = f.print
  | ⟨name, value⟩ => by
    simp only [Field.bare, Field.print, value.print_bare, Name.bare]
termination_by structural f => f

theorem Case.print_bare : (c : Case) → c.bare.print = c.print
  | ⟨values, body, _⟩ => by
    simp only [Case.bare, Case.print, printExprs_bare values, body.print_bare]
termination_by structural c => c

theorem Attempt.print_bare : (t : Attempt) → t.bare.print = t.print
  | ⟨body, param, handler, _⟩ => by
    simp only [Attempt.bare, Attempt.print, body.print_bare,
      printHandler_bare param handler]
termination_by structural t => t

/-- All statements but declarations are printed part by part. -/
theorem Stmt.print_bare : (s : Stmt) → s.bare.print = s.print
  | .bind _ _ _ value _ => Stmt.print_bind_bare value.print_bare
  | .ret value _ => by
    simp only [Stmt.bare, Stmt.print, printReturn_bare value]
  | .includes .. => rfl
  | .attempt t => by
    simp only [Stmt.bare, Stmt.print, t.print_bare]
  | .struct name fields _ => by
    simp only [Stmt.bare, Stmt.print, Name.map_text_bare, Name.bare]
  | .enum name variants _ => by
    simp only [Stmt.bare, Stmt.print, VariantDecl.map_print_bare, Name.bare]
  | .method struct f _ => by
    simp only [Stmt.bare, Stmt.print, f.name_bare, f.printTail_bare, Name.bare]
  | .brk _ => rfl
  | .cont _ => rfl
  | .expr e _ => by
    simp only [Stmt.bare, Stmt.print, e.print_bare]
termination_by structural s => s

/-- The lists of the printer, item by item. -/
theorem printExprs_bare : (es : List Expr) →
    printExprs (bareExprs es) = printExprs es
  | [] => rfl
  | e :: rest => by
    simp only [bareExprs, printExprs, e.print_bare, printExprs_bare rest]
termination_by structural es => es

theorem printEntries_bare : (es : List Entry) →
    printEntries (bareEntries es) = printEntries es
  | [] => rfl
  | e :: rest => by
    simp only [bareEntries, printEntries, e.print_bare, printEntries_bare rest]
termination_by structural es => es

theorem printFields_bare : (fs : List Field) →
    printFields (bareFields fs) = printFields fs
  | [] => rfl
  | f :: rest => by
    simp only [bareFields, printFields, f.print_bare, printFields_bare rest]
termination_by structural fs => fs

theorem printCases_bare : (cs : List Case) →
    printCases (bareCases cs) = printCases cs
  | [] => rfl
  | c :: rest => by
    simp only [bareCases, printCases, c.print_bare, printCases_bare rest]
termination_by structural cs => cs

theorem printStatements_bare : (ss : List Stmt) →
    printStatements (bareStmts ss) = printStatements ss
  | [] => rfl
  | s :: rest => by
    simp only [bareStmts, printStatements, s.print_bare,
      printStatements_bare rest]
termination_by structural ss => ss

/-- A part that is absent is not printed, bare or not. -/
theorem printOption_bare : (e : Option Expr) →
    printOption (bareExpr? e) = printOption e
  | none => rfl
  | some e => by simp only [bareExpr?, printOption, e.print_bare]
termination_by structural e => e

theorem printReturn_bare : (e : Option Expr) →
    printReturn (bareExpr? e) = printReturn e
  | none => rfl
  | some e => by simp only [bareExpr?, printReturn, e.print_bare]
termination_by structural e => e

theorem printStart_bare : (s : Option Stmt) →
    printStart (bareStmt? s) = printStart s
  | none => rfl
  | some s => by simp only [bareStmt?, printStart, s.print_bare]
termination_by structural s => s

theorem printAlternative_bare : (b : Option Block) →
    printAlternative (bareBlock? b) = printAlternative b
  | none => rfl
  | some b => by simp only [bareBlock?, printAlternative, b.print_bare]
termination_by structural b => b

theorem printDefault_bare : (b : Option Block) →
    printDefault (bareBlock? b) = printDefault b
  | none => rfl
  | some b => by simp only [bareBlock?, printDefault, b.print_bare]
termination_by structural b => b

/-- The parameter of a handler is printed by its text, if there is one. -/
theorem printHandler_bare (param : Option Name) : (b : Option Block) →
    printHandler (param.map Name.bare) (bareBlock? b) = printHandler param b
  | none => rfl
  | some b => by
    simp only [bareBlock?, printHandler, b.print_bare]
    cases param <;> rfl
termination_by structural b => b

end

/-- The statements of a program are printed one after another, a line for each. -/
theorem Program.print_bare (p : Program) : p.bare.print = p.print := by
  have hfold : ∀ (sts : List Stmt) (text : String),
      (bareStmts sts).foldl (fun text s => text ++ s.print ++ "\n") text =
        sts.foldl (fun text s => text ++ s.print ++ "\n") text := by
    intro sts
    induction sts with
    | nil => exact fun _ => rfl
    | cons st sts ih =>
      intro text
      rw [bareStmts, List.foldl_cons, List.foldl_cons, st.print_bare]
      exact ih _
  exact hfold p.statements ""

/-- Trees that are the same up to locations are printed alike. -/
theorem Program.print_eq_of_bare_eq {p q : Program} (h : q.bare = p.bare) :
    q.print = p.print := by
  rw [← q.print_bare, h, p.print_bare]

end Script
