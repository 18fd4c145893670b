import Script.Proofs.Syntax.Printing

/-!
# Printed blocks, statements and programs
-/

namespace Script

open Lexeme (sign word listed further endOfInput)
open Syntax (commaSeparated printReturns printAnnotation annotationLexemes
  numberLexemes returnLexemes dropSemicolons isTerm)
open Cursor (Lexes Clear clear_cons clear_point pairKind?)

variable {chars rest : List Char} {ls : List Lexeme} {loc : Location}

attribute [local simp] Expr.print Stmt.print

/-! ### Blocks and functions -/

theorem lexes_statements {sts : List Stmt}
    (h : ∀ st ∈ sts, Spelled st.print st.lexemes) (hrest : Lexes chars ls rest) :
    Lexes ((printStatements sts).toList ++ chars) (statementsLexemes sts ++ ls)
      rest := by
  induction sts with
  | nil => exact hrest
  | cons st sts ih =>
    have hsts := ih fun st' hst' => h st' (List.mem_cons_of_mem st hst')
    simp only [printStatements, statementsLexemes, String.toList_append,
      String.reduceToList, List.append_assoc, List.cons_append,
      List.nil_append]
    exact (h st List.mem_cons_self).then (clear_blank _) (.blank rfl hsts)

theorem Block.spelled {bl : Block}
    (h : ∀ st ∈ bl.statements, Spelled st.print st.lexemes) :
    Spelled bl.print bl.lexemes := by
  intro rest _
  obtain ⟨statements, loc⟩ := bl
  simp only [Block.print, Block.lexemes, String.toList_append,
    String.reduceToList, List.cons_append, List.nil_append]
  exact .alone rfl rfl (.blank rfl (lexes_statements h (.alone rfl rfl .nil)))

theorem Function.spelled {f : Function}
    (hparams : f.params.isWellFormed = true)
    (hreturns : f.returns.all TypeExpr.isWellFormed = true)
    (hbody : Spelled f.body.print f.body.lexemes) :
    Spelled f.printTail f.tailLexemes := by
  intro rest hrest
  obtain ⟨name, params, returns, body, loc⟩ := f
  simp only [Function.printTail, Function.tailLexemes, String.toList_append,
    String.reduceToList, List.append_assoc, List.cons_append, List.nil_append]
  exact Params.lexes hparams (Syntax.lexes_returns hreturns
    (.blank rfl (hbody rest hrest)))

/-- The text of a function goes on with a parenthesis. -/
theorem Function.clear_printTail (f : Function) (rest : List Char) :
    Clear (f.printTail.toList ++ rest) := by
  obtain ⟨name, params, returns, body, loc⟩ := f
  have htext : ∃ cs, (Function.mk name params returns body loc).printTail.toList =
      '(' :: cs := by
    simp only [Function.printTail, Params.print, String.toList_append,
      String.reduceToList, List.append_assoc, List.cons_append,
      List.nil_append]
    exact ⟨_, rfl⟩
  obtain ⟨cs, heq⟩ := htext
  rw [heq]
  exact clear_cons rfl (by decide) _

theorem Function.ends (f : Function) : Ends f.printTail := by
  obtain ⟨name, params, returns, body, loc⟩ := f
  exact Ends.append body.ends _

/-- A text that starts with a reserved word has the start of an expression. -/
theorem starts_of_word {text : String} (c : Char) {cs : List Char}
    (heq : text.toList = c :: cs) (hc : Cursor.startsName c = true) :
    ∃ c cs, text.toList = c :: cs ∧ pairKind? '-' c = none ∧
      pairKind? '!' c = none := by
  refine ⟨c, cs, heq, Cursor.pairKind?_of_word ?_⟩
  unfold Cursor.continuesName
  rw [hc, Bool.true_or]

/-! ### Control flow -/

namespace Expr

theorem spells_function {f : Function} (hf : Spelled f.printTail f.tailLexemes) :
    (Expr.function f).Spells where
  spelled := by
    intro rest hrest
    simp only [Expr.print, Expr.lexemes, String.toList_append]
    exact lexes_keyword .defineWord rfl (f.clear_printTail rest)
      (hf rest hrest)
  ends := Ends.append f.ends _
  starts := starts_of_word 'd' (by simp [Expr.print]; rfl) rfl

variable {condition : Expr} {body : Block}

theorem spells_branch {alternative : Option Block}
    (hcondition : condition.Spells) (hbody : Spelled body.print body.lexemes)
    (halternative : ∀ bl ∈ alternative, Spelled bl.print bl.lexemes) :
    (Expr.branch condition body alternative loc).Spells where
  spelled := by
    intro rest hrest
    have hend : Clear ((printAlternative alternative).toList ++ rest) ∧
        Lexes (printAlternative alternative).toList
          (alternativeLexemes alternative) rest := by
      cases alternative with
      | none => exact ⟨hrest, .nil⟩
      | some bl =>
        simp only [printAlternative, alternativeLexemes, String.toList_append,
          String.reduceToList, List.cons_append, List.nil_append]
        exact ⟨clear_blank _, .blank rfl (lexes_keyword .elseWord rfl
          (clear_blank _) (.blank rfl (halternative bl rfl rest hrest)))⟩
    simp only [Expr.print, Expr.lexemes, String.toList_append,
      String.reduceToList, List.append_assoc, List.cons_append,
      List.nil_append]
    exact lexes_keyword .ifWord rfl (clear_blank _) (.blank rfl
      (.alone rfl rfl (hcondition.spelled.then (clear_rparen _) (.alone rfl rfl
      (.blank rfl (hbody.then hend.1 hend.2))))))
  ends := by
    cases alternative with
    | none =>
      have hprint : (Expr.branch condition body none loc).print =
          "if (" ++ condition.print ++ ") " ++ body.print := by
        simp [Expr.print, printAlternative]
      rw [hprint]
      exact Ends.append body.ends _
    | some bl => exact Ends.append (Ends.append bl.ends _) _
  starts := starts_of_word 'i' (by simp [Expr.print]; rfl) rfl

theorem spells_whileLoop (hcondition : condition.Spells)
    (hbody : Spelled body.print body.lexemes) :
    (Expr.whileLoop condition body loc).Spells where
  spelled := by
    intro rest hrest
    simp only [Expr.print, Expr.lexemes, String.toList_append,
      String.reduceToList, List.append_assoc, List.cons_append,
      List.nil_append]
    exact lexes_keyword .whileWord rfl (clear_blank _) (.blank rfl
      (.alone rfl rfl (hcondition.spelled.then (clear_rparen _) (.alone rfl rfl
      (.blank rfl (hbody rest hrest))))))
  ends := Ends.append body.ends _
  starts := starts_of_word 'w' (by simp [Expr.print]; rfl) rfl

end Expr

/-! ### `try` -/

theorem Attempt.spelled {t : Attempt} (ht : Node.attemptIsWellFormed t = true)
    (hbody : Spelled t.body.print t.body.lexemes)
    (hhandler : ∀ bl ∈ t.handler, Spelled bl.print bl.lexemes) :
    Spelled t.print t.lexemes := by
  intro rest hrest
  obtain ⟨body, param, handler, loc⟩ := t
  rw [Node.attemptIsWellFormed, Bool.and_eq_true] at ht
  dsimp only at ht hbody hhandler
  have hend : Clear ((printHandler param handler).toList ++ rest) ∧
      Lexes (printHandler param handler).toList
        (handlerLexemes param handler) rest := by
    cases handler with
    | none => exact ⟨hrest, .nil⟩
    | some bl =>
      have hbl := hhandler bl rfl rest hrest
      cases param with
      | none =>
        simp only [printHandler, handlerLexemes, String.toList_append,
          String.reduceToList, List.cons_append, List.nil_append]
        exact ⟨clear_blank _, .blank rfl (lexes_keyword .catchWord rfl
          (clear_blank _) (.blank rfl hbl))⟩
      | some name =>
        simp only [printHandler, handlerLexemes, String.toList_append,
          String.reduceToList, List.append_assoc, List.cons_append,
          List.nil_append]
        exact ⟨clear_blank _, .blank rfl (lexes_keyword .catchWord rfl
          (clear_blank _) (.blank rfl (.alone rfl rfl
          ((spelled_name ht.1).then (clear_rparen _) (.alone rfl rfl
          (.blank rfl hbl))))))⟩
  simp only [Attempt.print, Attempt.lexemes, String.toList_append,
    String.reduceToList, List.cons_append, List.nil_append]
  exact lexes_keyword .tryWord rfl (clear_blank _) (.blank rfl
    (hbody.then hend.1 hend.2))

theorem Attempt.ends (t : Attempt) : Ends t.print := by
  obtain ⟨body, param, handler, loc⟩ := t
  cases handler with
  | none =>
    have hprint : (Attempt.mk body param none loc).print =
        "try " ++ body.print := by
      simp [Attempt.print, printHandler]
    rw [hprint]
    exact Ends.append body.ends _
  | some bl => exact Ends.append (Ends.append bl.ends _) _

theorem Expr.spells_attempt {t : Attempt} (ht : Spelled t.print t.lexemes) :
    (Expr.attempt t).Spells where
  spelled := ht
  ends := t.ends
  starts := by
    obtain ⟨body, param, handler, loc⟩ := t
    exact starts_of_word 't'
      (by simp [Expr.print, Attempt.print]; rfl) rfl

/-! ### `switch` -/

theorem lexes_cases {cs : List Case}
    (h : ∀ c ∈ cs, (∀ e ∈ c.values, e.Spells) ∧
      Spelled c.body.print c.body.lexemes) (hrest : Lexes chars ls rest) :
    Lexes ((printCases cs).toList ++ chars) (casesLexemes cs ++ ls) rest := by
  induction cs with
  | nil => exact hrest
  | cons c cs ih =>
    have hcs := ih fun c' hc' => h c' (List.mem_cons_of_mem c hc')
    obtain ⟨hvalues, hbody⟩ := h c List.mem_cons_self
    obtain ⟨values, body, loc⟩ := c
    simp only [printCases, casesLexemes, Case.print, Case.lexemes,
      String.toList_append, String.reduceToList, List.append_assoc,
      List.cons_append, List.nil_append]
    exact lexes_keyword .caseWord rfl (clear_blank _) (.blank rfl
      ((Expr.spelled_exprs hvalues).then (clear_blank _) (.blank rfl
      (hbody.then (clear_blank _) (.blank rfl hcs)))))

theorem Expr.spells_switch {subject : Expr} {cases : List Case}
    {default : Option Block} (hsubject : subject.Spells)
    (hcases : ∀ c ∈ cases, (∀ e ∈ c.values, e.Spells) ∧
      Spelled c.body.print c.body.lexemes)
    (hdefault : ∀ bl ∈ default, Spelled bl.print bl.lexemes) :
    (Expr.switch subject cases default loc).Spells where
  spelled := by
    intro rest _
    have hend : Lexes ((printDefault default).toList ++ ['\x7d'])
        (defaultLexemes default ++ [sign .rbrace]) rest := by
      cases default with
      | none => exact .alone rfl rfl .nil
      | some bl =>
        simp only [printDefault, defaultLexemes, String.toList_append,
          String.reduceToList, List.append_assoc, List.cons_append,
          List.nil_append]
        exact lexes_keyword .defaultWord rfl (clear_blank _)
          (.blank rfl ((hdefault bl rfl).then (clear_blank _) (.blank rfl
          (.alone rfl rfl .nil))))
    simp only [Expr.print, Expr.lexemes, String.toList_append,
      String.reduceToList, List.append_assoc, List.cons_append,
      List.nil_append]
    exact lexes_keyword .switchWord rfl (clear_blank _) (.blank rfl
      (.alone rfl rfl (hsubject.spelled.then (clear_rparen _) (.alone rfl rfl
      (.blank rfl (.alone rfl rfl (.blank rfl (lexes_cases hcases hend))))))))
  ends := Ends.append ⟨[], '\x7d', rfl, by decide⟩ _
  starts := starts_of_word 's' (by simp [Expr.print]; rfl) rfl

/-! ### Variables -/

/-- A binding is printed as one, unless it defines a function. -/
theorem Stmt.print_bind {constant : Bool} {name : Name}
    {type : Option TypeExpr} {value : Expr}
    (hplain : constant = false → type = none → ∀ f, value = .function f →
      f.name ≠ some name.text) :
    (Stmt.bind constant name type value loc).print =
      (if constant then "const " else "let ") ++ name.text ++
        printAnnotation type ++ " = " ++ value.print ++ ";" := by
  unfold Stmt.print
  split
  · next f _ heq =>
    cases heq
    have hdefine : " = define" = " = " ++ "define" := rfl
    rw [if_neg (hplain rfl rfl f rfl), hdefine]
    simp only [ printAnnotation, Expr.print, String.append_assoc,
      String.empty_append, Bool.false_eq_true, if_false]
  · next heq =>
    cases heq
    rfl
  all_goals next heq => cases heq

/-- A variable and its value, without the semicolon. -/
theorem lexes_binding (constant : Bool) {name : Name} {type : Option TypeExpr}
    {value : Expr} (hname : name.isIdentifier = true)
    (htype : type.all TypeExpr.isWellFormed = true) (hvalue : value.Spells)
    (hclear : Clear (chars ++ rest)) (h : Lexes chars ls rest) :
    Lexes (((if constant then "const " else "let ") ++ name.text ++
        printAnnotation type ++ " = " ++ value.print).toList ++ chars)
      (sign (if constant then .constWord else .letWord) :: (name.lexeme ::
        (annotationLexemes type ++ sign .assign :: (value.lexemes ++ ls))))
      rest := by
  have hassign : Lexes (' ' :: '=' :: ' ' :: (value.print.toList ++ chars))
      (sign .assign :: (value.lexemes ++ ls)) rest := by
    refine .blank rfl ((Cursor.lexes_single rfl (by decide) ?_ (by simp)).append
      (.blank rfl (hvalue.spelled.then hclear h)))
    simp [pairKind?]
  have hclear' : Clear (( printAnnotation type).toList ++
      ' ' :: '=' :: ' ' :: (value.print.toList ++ chars) ++ rest) := by
    cases type with
    | none => exact clear_blank _
    | some t =>
      simp only [ printAnnotation, String.toList_append, String.reduceToList,
        List.cons_append]
      exact clear_cons rfl (by decide) _
  have hnamed := (spelled_name hname).then hclear'
    (Syntax.lexes_annotation htype hassign)
  cases constant with
  | true =>
    simp only [if_true, String.toList_append, String.reduceToList,
      List.append_assoc, List.cons_append, List.nil_append]
    exact lexes_keyword .constWord rfl (clear_blank _)
      (.blank rfl hnamed)
  | false =>
    simp only [Bool.false_eq_true, if_false, String.toList_append,
      String.reduceToList, List.append_assoc, List.cons_append,
      List.nil_append]
    exact lexes_keyword .letWord rfl (clear_blank _)
      (.blank rfl hnamed)

theorem clear_semicolon (rest : List Char) : Clear (';' :: rest) :=
  clear_cons rfl (by decide) rest

theorem Stmt.spelled_bind {constant : Bool} {name : Name}
    {type : Option TypeExpr} {value : Expr}
    (hplain : constant = false → type = none → ∀ f, value = .function f →
      f.name ≠ some name.text)
    (hname : name.isIdentifier = true)
    (htype : type.all TypeExpr.isWellFormed = true) (hvalue : value.Spells) :
    Spelled (Stmt.bind constant name type value loc).print
      (Stmt.bind constant name type value loc).lexemes := by
  intro rest _
  have hlexes := lexes_binding constant hname
    htype hvalue (clear_semicolon rest) (.alone rfl rfl .nil)
  rw [print_bind hplain, lexemes_bind hplain, String.toList_append]
  simpa using hlexes

/-! ### Nodes -/

namespace Node

/-- The text of a node is spelled as its lexemes. -/
def Spells : Node → Prop
  | expr e => e.Spells ∧ ∀ f, e = .function f → f.name = none
  | stmt st => Spelled st.print st.lexemes
  | block bl => Spelled bl.print bl.lexemes
  | function f => Spelled f.printTail f.tailLexemes

theorem exists_mem_inTurn {b : Bool} {nodes : List Node} {n : Node}
    (hn : n ∈ nodes) : ∃ b', (b', n) ∈ inTurn b nodes := by
  induction nodes generalizing b with
  | nil => cases hn
  | cons n' nodes ih =>
    rcases List.mem_cons.mp hn with rfl | hmem
    · exact ⟨b, List.mem_cons_self⟩
    · obtain ⟨b', hb'⟩ := ih (b := inCaseAfter b n'.lexemes) hmem
      exact ⟨b', List.mem_cons_of_mem _ hb'⟩

theorem spells_of_inTurn {b : Bool} {nodes : List Node}
    (h : ∀ b' n', (b', n') ∈ inTurn b nodes → n'.Spells) :
    ∀ n ∈ nodes, n.Spells := by
  intro n hn
  obtain ⟨b', hb'⟩ := exists_mem_inTurn (b := b) hn
  exact h b' n hb'

end Node

/-! ### `for` -/

theorem LoopHeader.lexes {header : LoopHeader}
    (hheader : Node.headerIsWellFormed header = true)
    (h : ∀ n ∈ Node.ofHeader header, n.Spells) (hclear : Clear (chars ++ rest))
    (hrest : Lexes chars ls rest) :
    Lexes (header.print.toList ++ chars) (header.lexemes ++ ls) rest := by
  cases header with
  | items item iterable =>
    have hiterable : (Node.expr iterable).Spells := h _ (by simp [Node.ofHeader])
    simp only [LoopHeader.print, LoopHeader.lexemes, String.toList_append,
      String.reduceToList, List.append_assoc, List.cons_append,
      List.nil_append]
    exact (spelled_name hheader).then (clear_blank _) (.blank rfl
      (lexes_keyword .inWord rfl (clear_blank _) (.blank rfl
      (hiterable.1.spelled.then hclear hrest))))
  | pairs index value iterable =>
    have hiterable : (Node.expr iterable).Spells := h _ (by simp [Node.ofHeader])
    rw [Node.headerIsWellFormed, Bool.and_eq_true] at hheader
    simp only [LoopHeader.print, LoopHeader.lexemes, String.toList_append,
      String.reduceToList, List.append_assoc, List.cons_append,
      List.nil_append]
    exact (spelled_name hheader.1).then (clear_cons rfl (by decide) _)
      (.alone rfl rfl (.blank rfl ((spelled_name hheader.2).then (clear_blank _)
      (.blank rfl (lexes_keyword .inWord rfl (clear_blank _)
      (.blank rfl (hiterable.1.spelled.then hclear hrest)))))))
  | counting start? condition update =>
    have hcondition : ∀ e ∈ condition, e.Spells := fun e he => by
      have hnode : (Node.expr e).Spells := h _ (by
        simp only [Node.ofHeader, List.mem_append, List.mem_map]
        exact Or.inl (Or.inr ⟨e, by simpa using he, rfl⟩))
      exact hnode.1
    have hupdate : ∀ e ∈ update, e.Spells := fun e he => by
      have hnode : (Node.expr e).Spells := h _ (by
        simp only [Node.ofHeader, List.mem_append, List.mem_map]
        exact Or.inr ⟨e, by simpa using he, rfl⟩)
      exact hnode.1
    have htail : Lexes (';' :: ' ' :: ((printOption condition).toList ++
        ';' :: ' ' :: ((printOption update).toList ++ chars)))
        (sign .semicolon :: (optionLexemes condition ++ sign .semicolon ::
          (optionLexemes update ++ ls))) rest :=
      .alone rfl rfl (.blank rfl (Syntax.lexes_option hcondition
        (clear_semicolon _) (.alone rfl rfl (.blank rfl
        (Syntax.lexes_option hupdate hclear hrest)))))
    simp only [LoopHeader.print, LoopHeader.lexemes, String.toList_append,
      String.reduceToList, List.append_assoc, List.cons_append,
      List.nil_append]
    cases start? with
    | none => exact htail
    | some start =>
      cases start with
      | bind constant name type value loc =>
        have hvalue : (Node.expr value).Spells := h _ (by simp [Node.ofHeader])
        rw [Node.headerIsWellFormed, Bool.and_eq_true] at hheader
        have hplain : constant = false → type = none → ∀ f, value = .function f →
            f.name ≠ some name.text := by
          rintro - - f heq
          rw [hvalue.2 f heq]
          simp
        have hends : Ends ((if constant then "const " else "let ") ++ name.text ++
            printAnnotation type ++ " = " ++ value.print) :=
          Ends.append hvalue.1.ends _
        have hlexes := lexes_binding constant hheader.1 hheader.2 hvalue.1
          (clear_semicolon _) htail
        rw [printStart, Stmt.print_bind hplain,
          Syntax.dropSemicolons_append hends]
        simpa [startLexemes] using hlexes
      | expr e loc =>
        have he : (Node.expr e).Spells := h _ (by simp [Node.ofHeader])
        rw [printStart, Stmt.print, Syntax.dropSemicolons_append he.1.ends]
        exact he.1.spelled.then (clear_semicolon _) htail
      | _ => cases hheader

theorem Expr.spells_forLoop {header : LoopHeader} {body : Block}
    (hheader : Node.headerIsWellFormed header = true)
    (h : ∀ n ∈ Node.ofHeader header, n.Spells)
    (hbody : Spelled body.print body.lexemes) :
    (Expr.forLoop header body loc).Spells where
  spelled := by
    intro rest hrest
    simp only [Expr.print, Expr.lexemes, String.toList_append,
      String.reduceToList, List.append_assoc, List.cons_append,
      List.nil_append]
    exact lexes_keyword .forWord rfl (clear_blank _) (.blank rfl
      (.alone rfl rfl (LoopHeader.lexes hheader h (clear_rparen _)
      (.alone rfl rfl (.blank rfl (hbody rest hrest))))))
  ends := Ends.append body.ends _
  starts := starts_of_word 'f' (by simp [Expr.print]; rfl) rfl

/-! ### Statements -/

/-- A number of a variant, with its sign. -/
theorem VariantDecl.spelled {v : VariantDecl} (hv : v.isWellFormed = true) :
    Spelled v.print v.lexemes := by
  intro rest hrest
  obtain ⟨name, value⟩ := v
  rw [isWellFormed, Bool.and_eq_true] at hv
  cases value with
  | none => exact spelled_name hv.1 rest hrest
  | some n =>
    have hmin : n ≠ Int64.minValue := by simpa using hv.2
    have hnumber : Lexes (toString n).toList (numberLexemes n) rest := by
      unfold numberLexemes
      split
      · next hneg =>
        have hpos := Numeral.neg_nonneg_of_neg hneg hmin
        obtain ⟨c, cs, heq, hc, hcs⟩ := Numeral.toString_cons hpos
        have hdigits := Cursor.lexes_int heq hc hcs hrest
        have hop : pairKind? '-' c = none :=
          (Cursor.pairKind?_of_word (Cursor.continuesName_of_isDigit hc)).1
        rw [Numeral.toString_of_neg hneg hmin, String.toList_append]
        refine (Cursor.lexes_single (c := '-') rfl (by decide)
          (fun d hd => ?_) (by simp)).append hdigits
        rw [heq] at hd
        obtain rfl := Option.some.inj hd
        exact hop
      · next hneg =>
        obtain ⟨c, cs, heq, hc, hcs⟩ :=
          Numeral.toString_cons (Int64.not_lt.mp hneg)
        exact Cursor.lexes_int heq hc hcs hrest
    simp only [VariantDecl.print, VariantDecl.lexemes, String.toList_append,
      String.reduceToList, List.append_assoc, List.cons_append,
      List.nil_append]
    refine (spelled_name hv.1).then (clear_blank _) (.blank rfl
      ((Cursor.lexes_single rfl (by decide) ?_ (by simp)).append
      (.blank rfl hnumber)))
    simp [pairKind?]

/-- A declaration with its members in braces. -/
theorem lexes_declaration (kind : Token.Kind) (rest : List Char) {name : Name}
    {text : String}
    (hkind : Token.Kind.ofWord? kind.text = some kind)
    (hname : name.isIdentifier = true) (hmembers : Spelled text ls) :
    Lexes (kind.text.toList ++ ' ' :: (name.text.toList ++
      ' ' :: '\x7b' :: ' ' :: (text.toList ++ [' ', '\x7d'])))
      (sign kind :: name.lexeme :: sign .lbrace :: (ls ++ [sign .rbrace]))
      rest :=
  lexes_keyword kind hkind (clear_blank _) (.blank rfl
    ((spelled_name hname).then (clear_blank _) (.blank rfl (.alone rfl rfl
    (.blank rfl (hmembers.then (clear_blank _) (.blank rfl
    (.alone rfl rfl .nil))))))))

theorem Stmt.spelled_includes {modules : List String} {grouped : Bool} :
    Spelled (Stmt.includes modules grouped loc).print
      (Stmt.includes modules grouped loc).lexemes := by
  intro rest _
  have hmodules : Spelled (commaSeparated (modules.map Syntax.quote))
      (listed (modules.map fun module =>
        [{ kind := .str, text := module }])) :=
    spelled_listed fun module _ _ _ => Cursor.lexes_quote module
  cases grouped with
  | false =>
    simp only [Stmt.print, Stmt.lexemes, Bool.false_eq_true, if_false,
      String.append_empty, String.toList_append, String.reduceToList,
      List.append_assoc, List.cons_append, List.nil_append]
    exact lexes_keyword .includeWord rfl (clear_blank _) (.blank rfl
      (hmodules.then (clear_semicolon _) (.alone rfl rfl .nil)))
  | true =>
    simp only [Stmt.print, Stmt.lexemes, if_true, String.toList_append,
      String.reduceToList, List.append_assoc, List.cons_append,
      List.nil_append]
    exact lexes_keyword .includeWord rfl (clear_blank _) (.blank rfl
      (.alone rfl rfl (hmodules.then (clear_rparen _) (.alone rfl rfl
      (.alone rfl rfl .nil)))))

theorem Stmt.spelled_ret {value : Option Expr} (h : ∀ e ∈ value, e.Spells) :
    Spelled (Stmt.ret value loc).print (Stmt.ret value loc).lexemes := by
  intro rest _
  cases value with
  | none =>
    simp only [Stmt.print, Stmt.lexemes, printReturn, optionLexemes,
      String.reduceToList, List.cons_append, List.nil_append]
    exact lexes_keyword .returnWord rfl (clear_semicolon _)
      (.alone rfl rfl .nil)
  | some e =>
    simp only [Stmt.print, Stmt.lexemes, printReturn, optionLexemes,
      String.toList_append, String.reduceToList, List.cons_append,
      List.nil_append]
    exact lexes_keyword .returnWord rfl (clear_blank _) (.blank rfl
      ((h e rfl).spelled.then (clear_semicolon _) (.alone rfl rfl .nil)))

theorem Stmt.spelled_method {struct : Name} {f : Function} {name : String}
    (hstruct : struct.isIdentifier = true) (hown : f.name = some name)
    (hname : Syntax.isIdentifier name = true)
    (hf : Spelled f.printTail f.tailLexemes) :
    Spelled (Stmt.method struct f loc).print
      (Stmt.method struct f loc).lexemes := by
  intro rest hrest
  obtain ⟨hclear, hlexes⟩ := Expr.Syntax.lexes_property _
    (Syntax.isTerm_of_isIdentifier hname) (f.clear_printTail rest)
    (hf rest hrest)
  rw [Stmt.print, Stmt.lexemes, hown]
  simp only [Option.getD_some, String.toList_append, String.reduceToList,
    List.append_assoc, List.cons_append, List.nil_append]
  exact lexes_keyword .defineWord rfl (clear_blank _) (.blank rfl
    ((spelled_name hstruct).then hclear hlexes))

theorem Stmt.spelled_define {name : Name} {f : Function}
    (hown : f.name = some name.text) (hname : name.isIdentifier = true)
    (hf : Spelled f.printTail f.tailLexemes) :
    Spelled (Stmt.bind false name none (.function f) loc).print
      (Stmt.bind false name none (.function f) loc).lexemes := by
  intro rest hrest
  rw [Stmt.print, Stmt.lexemes, if_pos hown, if_pos hown]
  simp only [String.toList_append, String.reduceToList, List.cons_append,
    List.nil_append]
  exact lexes_keyword .defineWord rfl (clear_blank _) (.blank rfl
    ((spelled_name hname).then (f.clear_printTail rest) (hf rest hrest)))

namespace Node

variable {b : Bool}

/-- An expression is spelled as its lexemes if everything in it is. -/
theorem spells_expr {e : Expr} (hwf : exprIsWellFormed e = true)
    (hfaithful : exprIsFaithful b e = true)
    (h : ∀ b' n', (b', n') ∈ ofExpr b e → n'.Spells) : e.Spells := by
  cases e with
  | name id => exact Expr.spells_name hwf
  | int value loc =>
    exact Expr.spells_int (by simpa [exprIsWellFormed] using hwf)
  | float literal loc => exact Expr.spells_float hwf
  | str value loc => exact Expr.spells_str
  | bool value loc => exact Expr.spells_bool
  | unary op right loc =>
    have hall := spells_of_inTurn h
    exact Expr.spells_unary (hall (expr right) (by simp)).1
  | binary left op right loc =>
    have hall := spells_of_inTurn h
    exact Expr.spells_binary (hall (expr left) (by simp)).1
      (hall (expr right) (by simp)).1
  | step op target loc =>
    have hall := spells_of_inTurn h
    exact Expr.spells_step (hall (expr target) (by simp)).1
  | assign target op value loc =>
    have hall := spells_of_inTurn h
    exact Expr.spells_assign (hall (expr target) (by simp)).1
      (hall (expr value) (by simp)).1
  | branch condition consequence alternative loc =>
    have hall := spells_of_inTurn h
    exact Expr.spells_branch (hall (expr condition) (by simp)).1
      (hall (block consequence) (by simp)) fun bl hbl =>
      hall (block bl) (by simpa using Or.inr hbl)
  | function f =>
    have hall := spells_of_inTurn h
    exact Expr.spells_function (hall (function f) (by simp))
  | arrow params body loc =>
    have hall := spells_of_inTurn h
    exact Expr.spells_arrow hwf (hall (expr body) (by simp)).1
  | call callee args loc =>
    have hall := spells_of_inTurn h
    exact Expr.spells_call (hall (expr callee) (by simp)).1 fun e he =>
      (hall (expr e) (by simpa using Or.inr he)).1
  | array elements loc =>
    have hall := spells_of_inTurn h
    exact Expr.spells_array fun e he => (hall (expr e) (by simpa using he)).1
  | index left index loc =>
    have hall := spells_of_inTurn h
    exact Expr.spells_index (hall (expr left) (by simp)).1
      (hall (expr index) (by simp)).1
  | slice left start stop loc =>
    have hall := spells_of_inTurn h
    refine Expr.spells_slice (hall (expr left) (by simp)).1 ?_ ?_
    · exact fun e he =>
        (hall (expr e) (by simpa using Or.inr (Or.inl he))).1
    · exact fun e he =>
        (hall (expr e) (by simpa using Or.inr (Or.inr he))).1
  | spread value loc =>
    have hall := spells_of_inTurn h
    exact Expr.spells_spread (hall (expr value) (by simp)).1
  | map entries loc =>
    have hall := spells_of_inTurn h
    refine Expr.spells_map fun e he => ⟨?_, ?_⟩
    · exact (hall (expr e.key)
        (List.mem_flatMap.mpr ⟨e, he, by simp⟩)).1
    · exact (hall (expr e.value)
        (List.mem_flatMap.mpr ⟨e, he, by simp⟩)).1
  | member object property loc =>
    have hall := spells_of_inTurn h
    exact Expr.spells_member (hall (expr object) (by simp)).1 hwf
  | record struct fields loc =>
    have hall := spells_of_inTurn h
    rw [exprIsWellFormed, Bool.and_eq_true] at hwf
    exact Expr.spells_record hwf.1 hwf.2 fun f hf =>
      (hall (expr f.value) (List.mem_map.mpr ⟨f, hf, rfl⟩)).1
  | whileLoop condition body loc =>
    have hall := spells_of_inTurn h
    exact Expr.spells_whileLoop (hall (expr condition) (by simp)).1
      (hall (block body) (by simp))
  | forLoop header body loc =>
    have hall := spells_of_inTurn h
    exact Expr.spells_forLoop hwf
      (fun n hn => hall n (List.mem_append_left _ hn))
      (hall (block body) (by simp))
  | switch subject cases default loc =>
    have hsubject : (expr subject).Spells := h b _ (by simp [ofExpr])
    refine Expr.spells_switch hsubject.1 (fun c hc => ?_) ?_
    · have hparts : ∀ b' n', (b', n') ∈ inTurn true (c.values.map expr) ++
          [(false, block c.body)] → n'.Spells := fun b' n' hn' =>
        h b' n' (List.mem_append_left _ (List.mem_cons_of_mem _
          (List.mem_flatMap.mpr ⟨c, hc, hn'⟩)))
      have hvalues := spells_of_inTurn fun b' n' hn' =>
        hparts b' n' (List.mem_append_left _ hn')
      exact ⟨fun e he => (hvalues (expr e) (List.mem_map.mpr ⟨e, he, rfl⟩)).1,
        hparts false (block c.body) (by simp)⟩
    · rintro bl rfl
      exact h _ (block bl) (List.mem_append_right _ List.mem_cons_self)
  | ternary condition consequence alternative loc =>
    have hall := spells_of_inTurn h
    exact Expr.spells_ternary (hall (expr condition) (by simp)).1
      (hall (expr consequence) (by simp)).1
      (hall (expr alternative) (by simp)).1
  | range start stop loc =>
    have hall := spells_of_inTurn h
    exact Expr.spells_range (hall (expr start) (by simp)).1
      (hall (expr stop) (by simp)).1 (by simpa [exprIsFaithful] using hfaithful)
  | attempt t =>
    have hall := spells_of_inTurn h
    exact Expr.spells_attempt (Attempt.spelled hwf
      (hall (block t.body) (by simp)) fun bl hbl =>
      hall (block bl) (by simpa using Or.inr hbl))

theorem spells_stmt {st : Stmt} (hwf : stmtIsWellFormed st = true)
    (hfaithful : stmtIsFaithful st = true)
    (h : ∀ b' n', (b', n') ∈ ofStmt b st → n'.Spells) : (stmt st).Spells := by
  cases st with
  | bind constant name type value loc =>
    have hall := spells_of_inTurn h
    have hvalue := hall (ofValue value) (by simp)
    rw [stmtIsWellFormed, Bool.and_eq_true] at hwf
    by_cases hfunction : ∃ f, value = .function f
    · obtain ⟨f, rfl⟩ := hfunction
      have hf : Spelled f.printTail f.tailLexemes := hvalue
      rw [stmtIsFaithful, Bool.or_eq_true] at hfaithful
      rcases hfaithful with hnone | hown
      · rw [Option.isNone_iff_eq_none] at hnone
        refine Stmt.spelled_bind ?_ hwf.1 hwf.2 (Expr.spells_function hf)
        rintro - - f' heq
        obtain rfl := Expr.function.inj heq
        rw [hnone]
        simp
      · simp only [Bool.and_eq_true, Bool.not_eq_true', beq_iff_eq,
          Option.isNone_iff_eq_none] at hown
        obtain ⟨⟨rfl, rfl⟩, hname⟩ := hown
        exact Stmt.spelled_define hname hwf.1 hf
    · have hplain : (expr value).Spells := by
        rwa [ofValue] at hvalue
        exact fun f heq => hfunction ⟨f, heq⟩
      exact Stmt.spelled_bind (fun _ _ f heq => absurd ⟨f, heq⟩ hfunction)
        hwf.1 hwf.2 hplain.1
  | ret value loc =>
    have hall := spells_of_inTurn h
    exact Stmt.spelled_ret fun e he => (hall (expr e) (by simpa using he)).1
  | includes modules grouped loc => exact Stmt.spelled_includes
  | attempt t =>
    have hall := spells_of_inTurn h
    exact Attempt.spelled hwf (hall (block t.body) (by simp)) fun bl hbl =>
      hall (block bl) (by simpa using Or.inr hbl)
  | struct name fields loc =>
    rw [stmtIsWellFormed, Bool.and_eq_true] at hwf
    intro rest _
    have hlexes := lexes_declaration .structWord rest rfl hwf.1
      (spelled_listed fun field hfield =>
        spelled_name (List.all_eq_true.mp hwf.2 field hfield))
    simpa [Stmt.print, Stmt.lexemes, Token.Kind.text] using hlexes
  | enum name variants loc =>
    rw [stmtIsWellFormed, Bool.and_eq_true] at hwf
    intro rest _
    have hlexes := lexes_declaration .enumWord rest rfl
      hwf.1 (spelled_listed fun v hv =>
        VariantDecl.spelled (List.all_eq_true.mp hwf.2 v hv))
    simpa [Stmt.print, Stmt.lexemes, Token.Kind.text] using hlexes
  | method struct f loc =>
    have hall := spells_of_inTurn h
    rw [stmtIsWellFormed, Bool.and_eq_true] at hwf
    obtain ⟨name, hname, hident⟩ := (Option.any_eq_true _ _).mp hwf.2
    exact Stmt.spelled_method hwf.1 hname hident (hall (function f) (by simp))
  | brk loc =>
    intro rest _
    simp only [Stmt.print, Stmt.lexemes, String.reduceToList]
    exact lexes_keyword .breakWord rfl (clear_semicolon _)
      (.alone rfl rfl .nil)
  | cont loc =>
    intro rest _
    simp only [Stmt.print, Stmt.lexemes, String.reduceToList]
    exact lexes_keyword .continueWord rfl (clear_semicolon _)
      (.alone rfl rfl .nil)
  | expr e loc =>
    have hall := spells_of_inTurn h
    have he : (Node.expr e).Spells := hall _ (by simp)
    intro rest _
    rw [Stmt.print, Stmt.lexemes, String.toList_append]
    exact he.1.spelled.then (clear_semicolon _) (.alone rfl rfl .nil)

/-- Printable nodes are spelled as their lexemes. -/
theorem spells_of_every {n : Node} (h : Every Printable b n) : n.Spells := by
  induction h with
  | @intro b n here _ ih =>
    obtain ⟨hwf, hfaithful, -⟩ := here
    cases n with
    | expr e =>
      refine ⟨spells_expr hwf hfaithful ih, ?_⟩
      rintro f rfl
      exact Option.isNone_iff_eq_none.mp hfaithful
    | stmt st => exact spells_stmt hwf hfaithful ih
    | block bl =>
      have hall := spells_of_inTurn ih
      exact Block.spelled fun st hst =>
        hall (stmt st) (List.mem_map.mpr ⟨st, hst, rfl⟩)
    | function f =>
      have hall := spells_of_inTurn ih
      exact Function.spelled hwf.1 hwf.2 (hall (block f.body) (by simp))

end Node

/-! ### Programs -/

/-- A program is printed one statement a line. -/
theorem Program.toList_print (p : Program) :
    p.print.toList = p.statements.flatMap fun st => st.print.toList ++ ['\n'] := by
  have hfold : ∀ (sts : List Stmt) (text : String),
      (sts.foldl (fun text st => text ++ st.print ++ "\n") text).toList =
        text.toList ++ sts.flatMap fun st => st.print.toList ++ ['\n'] := by
    intro sts
    induction sts with
    | nil => simp
    | cons st sts ih =>
      intro text
      rw [List.foldl_cons, ih]
      simp
  exact (hfold p.statements "").trans rfl

theorem lexes_program {sts : List Stmt}
    (h : ∀ st ∈ sts, Spelled st.print st.lexemes) :
    Lexes (sts.flatMap fun st => st.print.toList ++ ['\n'])
      (statementsLexemes sts) [] := by
  induction sts with
  | nil => exact .nil
  | cons st sts ih =>
    have hsts := ih fun st' hst' => h st' (List.mem_cons_of_mem st hst')
    rw [List.flatMap_cons, List.append_assoc, List.singleton_append,
      statementsLexemes]
    exact (h st List.mem_cons_self).then (clear_cons rfl (by decide) _)
      (.blank rfl hsts)

/-- The tokens of a printed program are its lexemes. -/
theorem lexemes_tokenize_print {p : Program}
    (hp : Node.EveryOf Node.Printable p) :
    (tokenize p.print).map Token.lexeme = p.lexemes := by
  have hall : ∀ n ∈ p.statements.map Node.stmt, n.Spells :=
    Node.spells_of_inTurn fun b n hn => Node.spells_of_every (hp b n hn)
  have hlexes := lexes_program fun st hst =>
    hall (.stmt st) (List.mem_map.mpr ⟨st, hst, rfl⟩)
  rw [← Program.toList_print] at hlexes
  exact Cursor.lexemes_tokenize hlexes

end Script
