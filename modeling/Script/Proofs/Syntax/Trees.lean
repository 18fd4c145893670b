import Script.Proofs.Syntax.Statements

/-!
# Reading whole trees

Every node that is well formed and faithful is read from its lexemes, if the
nodes inside it are.  So whole trees are, by induction on the nodes.
-/

namespace Script

open Lexeme (sign word listed further endOfInput)
open Node (inCaseAfter inTurn)
open Script.Parser

variable {n : Nat} {s : State} {b : Bool} {x : Lexeme} {r : List Lexeme}
  {loc : Location}

/-! ### Expressions as statements -/

/-- The first lexemes of an expression tell it from the other statements, unless
it starts with `try`. -/
def Expr.TellsItself (e : Expr) : Prop :=
  ∀ l ls, e.lexemes = l :: ls →
    (l.kind = .tryWord → e.startsWithAttempt = true) ∧
    (l.kind = .defineWord → ∃ ls', ls = sign .lparen :: ls')

theorem Expr.tellsItself_of_kind {e : Expr} {l : Lexeme} {ls : List Lexeme}
    (hl : e.lexemes = l :: ls) (htry : l.kind ≠ .tryWord)
    (hdefine : l.kind ≠ .defineWord) : e.TellsItself := by
  intro l' ls' hl'
  rw [hl] at hl'
  obtain ⟨rfl, -⟩ := List.cons.inj hl'
  exact ⟨fun h => absurd h htry, fun h => absurd h hdefine⟩

/-- A call or a member starts as what it is applied to. -/
theorem Expr.TellsItself.append {e whole : Expr} (h : e.TellsItself)
    (hopens : Opens e.lexemes) {rest : List Lexeme}
    (hwhole : whole.lexemes = e.lexemes ++ rest)
    (hattempt : whole.startsWithAttempt = e.startsWithAttempt) :
    whole.TellsItself := by
  intro l ls hl
  obtain ⟨l', ls', hl', -⟩ := hopens
  rw [hwhole, hl', List.cons_append] at hl
  obtain ⟨rfl, rfl⟩ := List.cons.inj hl
  obtain ⟨htry, hdefine⟩ := h l' ls' hl'
  refine ⟨fun hkind => hattempt.trans (htry hkind), fun hkind => ?_⟩
  obtain ⟨ls'', rfl⟩ := hdefine hkind
  exact ⟨ls'' ++ rest, rfl⟩

namespace Node

/-- The parser makes a node of its lexemes. -/
def Reads (b : Bool) : Node → Prop
  | expr e => e.Reads b ∧ e.TellsItself
  | stmt st => st.Reads b
  | block bl => bl.Reads b
  | function f => f.Reads b

/-- Nodes that are read one after another. -/
def ReadsInTurn (b : Bool) (nodes : List Node) : Prop :=
  ∀ b' n', (b', n') ∈ inTurn b nodes → n'.Reads b'

theorem ReadsInTurn.first {n : Node} {nodes : List Node}
    (h : ReadsInTurn b (n :: nodes)) : n.Reads b :=
  h b n List.mem_cons_self

theorem ReadsInTurn.rest {n : Node} {nodes : List Node}
    (h : ReadsInTurn b (n :: nodes)) :
    ReadsInTurn (inCaseAfter b n.lexemes) nodes :=
  fun b' n' hn' => h b' n' (List.mem_cons_of_mem _ hn')

theorem ReadsInTurn.exprs {es : List Expr} (h : ReadsInTurn b (es.map expr)) :
    Expr.ReadsAll b es := by
  induction es generalizing b with
  | nil => trivial
  | cons e es ih => exact ⟨h.first.1, ih h.rest⟩

theorem ReadsInTurn.stmts {sts : List Stmt} (h : ReadsInTurn b (sts.map stmt)) :
    Stmt.ReadsAll b sts := by
  induction sts generalizing b with
  | nil => trivial
  | cons st sts ih => exact ⟨h.first, ih h.rest⟩

theorem ReadsInTurn.entries {es : List Entry}
    (h : ReadsInTurn b (es.flatMap fun e => [expr e.key, expr e.value])) :
    Entry.ReadsAll b es := by
  induction es generalizing b with
  | nil => trivial
  | cons e es ih =>
    rw [List.flatMap_cons] at h
    refine ⟨h.first.1, h.rest.first.1, ih ?_⟩
    have hrest := h.rest.rest
    simpa [Entry.lexemes_eq, lexemes] using hrest

theorem ReadsInTurn.fields {fs : List Field}
    (h : ReadsInTurn b (fs.map fun f => expr f.value)) :
    Field.ReadsAll b fs := by
  induction fs generalizing b with
  | nil => trivial
  | cons f fs ih => exact ⟨h.first.1, ih h.rest⟩

/-- What may be missing. -/
theorem ReadsInTurn.option_expr {e : Option Expr} {nodes : List Node}
    (h : ReadsInTurn b (e.toList.map expr ++ nodes)) :
    (∀ e' ∈ e, e'.Reads b) ∧
      ReadsInTurn (inCaseAfter b (optionLexemes e)) nodes := by
  cases e with
  | none =>
    refine ⟨fun e' he' => by simp at he', ?_⟩
    simpa [optionLexemes] using h
  | some e =>
    refine ⟨fun e' he' => ?_, h.rest⟩
    obtain rfl := Option.some.inj he'
    exact h.first.1

theorem ReadsInTurn.option_block {bl : Option Block}
    (h : ReadsInTurn b (bl.toList.map block)) : ∀ bl' ∈ bl, bl'.Reads b := by
  rintro bl' rfl
  exact h.first

theorem ReadsInTurn.attempt {t : Attempt}
    (h : ReadsInTurn b (block t.body :: t.handler.toList.map block)) :
    t.Reads b :=
  ⟨h.first, h.rest.option_block⟩

/-! ### One node -/

theorem ReadsInTurn.header {header : LoopHeader} {body : Block}
    (h : ReadsInTurn b (ofHeader header ++ [block body]))
    (hheader : headerIsWellFormed header = true) :
    header.Reads b ∧ body.Reads (inCaseAfter b header.lexemes) := by
  match header with
  | .items item iterable =>
    have hitem : item.lexeme.kind ≠ .caseWord := by
      rw [Name.kind_lexeme hheader]
      simp
    refine ⟨⟨hheader, h.first.1⟩, ?_⟩
    have hbody : body.Reads (inCaseAfter b iterable.lexemes) := h.rest.first
    simpa [LoopHeader.lexemes, inCaseAfter_cons hitem] using hbody
  | .pairs index value iterable =>
    rw [headerIsWellFormed, Bool.and_eq_true] at hheader
    have hindex : index.lexeme.kind ≠ .caseWord := by
      rw [Name.kind_lexeme hheader.1]
      simp
    have hvalue : value.lexeme.kind ≠ .caseWord := by
      rw [Name.kind_lexeme hheader.2]
      simp
    refine ⟨⟨hheader.1, hheader.2, h.first.1⟩, ?_⟩
    have hbody : body.Reads (inCaseAfter b iterable.lexemes) := h.rest.first
    simpa [LoopHeader.lexemes, inCaseAfter_cons hindex,
      inCaseAfter_cons hvalue] using hbody
  | .counting none condition update =>
    change ReadsInTurn b (condition.toList.map expr ++
      update.toList.map expr ++ [block body]) at h
    rw [List.append_assoc] at h
    obtain ⟨hcondition, hrest⟩ := h.option_expr
    obtain ⟨hupdate, hbody⟩ := hrest.option_expr
    refine ⟨⟨by simp, ?_, ?_⟩, ?_⟩
    · simpa [startLexemes] using hcondition
    · simpa [startLexemes] using hupdate
    · have hlast : body.Reads (inCaseAfter (inCaseAfter b
          (optionLexemes condition)) (optionLexemes update)) := hbody.first
      simpa [LoopHeader.lexemes, startLexemes] using hlast
  | .counting (some (.bind constant name type value loc)) condition update =>
    rw [headerIsWellFormed, Bool.and_eq_true] at hheader
    rw [ofHeader, List.append_assoc, List.append_assoc] at h
    have hstart : inCaseAfter b (startLexemes
        (some (.bind constant name type value loc))) =
        inCaseAfter b value.lexemes := by
      rw [startLexemes, List.cons_append, List.cons_append,
        inCaseAfter_sign (by cases constant <;> simp),
        inCaseAfter_binding hheader.1 hheader.2]
    obtain ⟨hcondition, hrest⟩ := h.rest.option_expr
    obtain ⟨hupdate, hbody⟩ := hrest.option_expr
    refine ⟨⟨?_, ?_, ?_⟩, ?_⟩
    · intro st hst
      obtain rfl := Option.some.inj hst
      exact ⟨hheader.1, hheader.2, h.first.1⟩
    · rw [hstart]
      exact hcondition
    · rw [hstart]
      exact hupdate
    · have hlast := hbody.first
      simp only [LoopHeader.lexemes, inCaseAfter_append, hstart,
        inCaseAfter_sign, ne_eq, reduceCtorEq, not_false_eq_true]
      exact hlast
  | .counting (some (.expr e loc)) condition update =>
    rw [ofHeader, List.append_assoc, List.append_assoc] at h
    obtain ⟨hcondition, hrest⟩ := h.rest.option_expr
    obtain ⟨hupdate, hbody⟩ := hrest.option_expr
    refine ⟨⟨?_, hcondition, hupdate⟩, ?_⟩
    · intro st hst
      obtain rfl := Option.some.inj hst
      exact h.first.1
    · have hlast := hbody.first
      simp only [LoopHeader.lexemes, startLexemes, inCaseAfter_append,
        inCaseAfter_sign, ne_eq, reduceCtorEq, not_false_eq_true]
      exact hlast
  | .counting (some (.ret ..)) _ _ | .counting (some (.includes ..)) _ _
  | .counting (some (.attempt _)) _ _ | .counting (some (.struct ..)) _ _
  | .counting (some (.enum ..)) _ _ | .counting (some (.method ..)) _ _
  | .counting (some (.brk _)) _ _ | .counting (some (.cont _)) _ _ =>
    cases hheader

theorem reads_case {cases : List Case}
    (hvalues : cases.all (!·.values.isEmpty) = true)
    (hmode : cases.all caseKeepsMode = true)
    (h : ∀ b' n', (b', n') ∈ ofCases cases → n'.Reads b') :
    ∀ c ∈ cases, c.Reads := by
  intro c hc
  have hparts : ∀ b' n', (b', n') ∈ inTurn true (c.values.map expr) ++
      [(false, block c.body)] → n'.Reads b' := fun b' n' hn' =>
    h b' n' (List.mem_flatMap.mpr ⟨c, hc, hn'⟩)
  refine ⟨?_, ?_, List.all_eq_true.mp hmode c hc, ?_⟩
  · have hturn : ReadsInTurn true (c.values.map expr) := fun b' n' hn' =>
      hparts b' n' (List.mem_append_left _ hn')
    exact hturn.exprs
  · simpa using List.all_eq_true.mp hvalues c hc
  · exact hparts false (block c.body) (List.mem_append_right _ (by simp))

/-- An expression is read if everything in it is. -/
theorem reads_expr {e : Expr} (hwf : exprIsWellFormed e = true)
    (hfaithful : exprIsFaithful b e = true) (hmode : KeepsMode b (expr e))
    (h : ∀ b' n', (b', n') ∈ ofExpr b e → n'.Reads b') : (expr e).Reads b := by
  cases e with
  | name id =>
    refine ⟨Expr.reads_name hwf, Expr.tellsItself_of_kind rfl ?_ ?_⟩
    · exact Syntax.kind_word_ne hwf (by simp) rfl
    · exact Syntax.kind_word_ne hwf (by simp) rfl
  | int value loc =>
    exact ⟨Expr.reads_int,
      Expr.tellsItself_of_kind rfl (by simp) (by simp)⟩
  | float literal loc =>
    exact ⟨Expr.reads_float hwf,
      Expr.tellsItself_of_kind rfl (by simp) (by simp)⟩
  | str value loc =>
    exact ⟨Expr.reads_str, Expr.tellsItself_of_kind rfl (by simp) (by simp)⟩
  | bool value loc =>
    exact ⟨Expr.reads_bool, Expr.tellsItself_of_kind rfl
      (by cases value <;> simp) (by cases value <;> simp)⟩
  | unary op right loc =>
    have hturn : ReadsInTurn b [expr right] := h
    exact ⟨Expr.reads_unary hturn.first.1,
      Expr.tellsItself_of_kind rfl (by simp) (by simp)⟩
  | binary left op right loc =>
    have hturn : ReadsInTurn b [expr left, expr right] := h
    exact ⟨Expr.reads_binary hturn.first.1 hturn.rest.first.1,
      Expr.tellsItself_of_kind rfl (by simp) (by simp)⟩
  | step op target loc =>
    have hturn : ReadsInTurn b [expr target] := h
    exact ⟨Expr.reads_step hturn.first.1 (by simpa [exprIsFaithful] using hfaithful),
      Expr.tellsItself_of_kind rfl (by simp) (by simp)⟩
  | assign target op value loc =>
    have hturn : ReadsInTurn b [expr target, expr value] := h
    exact ⟨Expr.reads_assign hturn.first.1 hturn.rest.first.1,
      Expr.tellsItself_of_kind rfl (by simp) (by simp)⟩
  | branch condition consequence alternative loc =>
    have hturn : ReadsInTurn b (expr condition :: block consequence ::
      alternative.toList.map block) := h
    exact ⟨Expr.reads_branch hturn.first.1 hturn.rest.first
      hturn.rest.rest.option_block,
      Expr.tellsItself_of_kind rfl (by simp) (by simp)⟩
  | function f =>
    have hturn : ReadsInTurn b [function f] := h
    refine ⟨Expr.reads_function (Option.isNone_iff_eq_none.mp hfaithful)
      hturn.first, ?_⟩
    intro l ls hl
    rw [Expr.lexemes] at hl
    obtain ⟨rfl, rfl⟩ := List.cons.inj hl
    exact ⟨fun hkind => by simp at hkind, fun _ => f.exists_tailLexemes⟩
  | arrow params body loc =>
    have hturn : ReadsInTurn b [expr body] := h
    refine ⟨Expr.reads_arrow hwf (fun param hparam => ?_) hturn.first.1,
      Expr.tellsItself_of_kind rfl (by simp) (by simp)⟩
    exact Expr.reads_name (isTerm_of_arrowIsWellFormed hwf param hparam)
  | call callee args loc =>
    have hturn : ReadsInTurn b (expr callee :: args.map expr) := h
    have hspread : callee.isSpread = false := by
      simpa [exprIsFaithful] using hfaithful
    refine ⟨Expr.reads_call hturn.first.1 hspread hturn.rest.exprs, ?_⟩
    have hlexemes : (Expr.call callee args loc).lexemes = callee.lexemes ++
        (sign .lparen :: listed (exprsLexemes args) ++ [sign .rparen]) := by
      rw [Expr.lexemes, List.append_assoc]
    exact hturn.first.2.append hturn.first.1.opens hlexemes rfl
  | array elements loc =>
    have hturn : ReadsInTurn b (elements.map expr) := h
    exact ⟨Expr.reads_array hturn.exprs,
      Expr.tellsItself_of_kind rfl (by simp) (by simp)⟩
  | index left index loc =>
    have hturn : ReadsInTurn b [expr left, expr index] := h
    have hspread : left.isSpread = false := by
      simpa [exprIsFaithful] using hfaithful
    exact ⟨Expr.reads_index hturn.first.1 hspread hturn.rest.first.1,
      Expr.tellsItself_of_kind rfl (by simp) (by simp)⟩
  | slice left start stop loc =>
    have hturn : ReadsInTurn b
      (expr left :: (start.toList.map expr ++ stop.toList.map expr)) := h
    have hspread : left.isSpread = false := by
      simpa [exprIsFaithful] using hfaithful
    obtain ⟨hstart, hrest⟩ := hturn.rest.option_expr
    rw [← List.append_nil (stop.toList.map expr)] at hrest
    exact ⟨Expr.reads_slice hturn.first.1 hspread hstart hrest.option_expr.1,
      Expr.tellsItself_of_kind rfl (by simp) (by simp)⟩
  | spread value loc =>
    have hturn : ReadsInTurn b [expr value] := h
    exact ⟨Expr.reads_spread hturn.first.1,
      Expr.tellsItself_of_kind rfl (by simp) (by simp)⟩
  | map entries loc =>
    have hturn : ReadsInTurn b
      (entries.flatMap fun e => [expr e.key, expr e.value]) := h
    exact ⟨Expr.reads_map hturn.entries,
      Expr.tellsItself_of_kind rfl (by simp) (by simp)⟩
  | member object property loc =>
    have hturn : ReadsInTurn b [expr object] := h
    have hspread : object.isSpread = false := by
      simpa [exprIsFaithful] using hfaithful
    refine ⟨Expr.reads_member hturn.first.1 hspread hwf, ?_⟩
    exact hturn.first.2.append hturn.first.1.opens rfl rfl
  | record struct fields loc =>
    have hturn : ReadsInTurn b (fields.map fun f => expr f.value) := h
    have hb : b = false := by simpa [exprIsFaithful] using hfaithful
    rw [exprIsWellFormed, Bool.and_eq_true] at hwf
    subst hb
    refine ⟨Expr.reads_record hwf.1 hwf.2 hturn.fields,
      Expr.tellsItself_of_kind rfl ?_ ?_⟩
    · rw [Name.kind_lexeme hwf.1]
      simp
    · rw [Name.kind_lexeme hwf.1]
      simp
  | whileLoop condition body loc =>
    have hturn : ReadsInTurn b [expr condition, block body] := h
    exact ⟨Expr.reads_whileLoop hturn.first.1 hturn.rest.first,
      Expr.tellsItself_of_kind rfl (by simp) (by simp)⟩
  | forLoop header body loc =>
    have hturn : ReadsInTurn b (ofHeader header ++ [block body]) := h
    obtain ⟨hheader, hbody⟩ := hturn.header hwf
    exact ⟨Expr.reads_forLoop hheader hbody,
      Expr.tellsItself_of_kind rfl (by simp) (by simp)⟩
  | switch subject cases default loc =>
    have hsubject : (expr subject).Reads b := h b _ (by simp [ofExpr])
    have hcases : ∀ b' n', (b', n') ∈ ofCases cases → n'.Reads b' :=
      fun b' n' hn' => h b' n' (by simp [ofExpr, hn'])
    refine ⟨Expr.reads_switch hsubject.1 (reads_case hwf hmode hcases) ?_,
      Expr.tellsItself_of_kind rfl (by simp) (by simp)⟩
    rintro bl rfl
    exact h _ (block bl) (by simp [ofExpr])
  | ternary condition consequence alternative loc =>
    have hturn : ReadsInTurn b
      [expr condition, expr consequence, expr alternative] := h
    exact ⟨Expr.reads_ternary hturn.first.1 hturn.rest.first.1
      hturn.rest.rest.first.1,
      Expr.tellsItself_of_kind rfl (by simp) (by simp)⟩
  | range start stop loc =>
    have hturn : ReadsInTurn b [expr start, expr stop] := h
    exact ⟨Expr.reads_range hturn.first.1 hturn.rest.first.1,
      Expr.tellsItself_of_kind rfl (by simp) (by simp)⟩
  | attempt t =>
    have hturn : ReadsInTurn b
      (block t.body :: t.handler.toList.map block) := h
    refine ⟨Expr.reads_attempt hturn.attempt hwf, ?_⟩
    intro l ls hl
    obtain ⟨body, param, handler, loc⟩ := t
    rw [Expr.lexemes, Attempt.lexemes] at hl
    obtain ⟨rfl, rfl⟩ := List.cons.inj hl
    exact ⟨fun _ => rfl, fun hkind => by simp at hkind⟩

theorem reads_stmt {st : Stmt} (hwf : stmtIsWellFormed st = true)
    (hfaithful : stmtIsFaithful st = true)
    (h : ∀ b' n', (b', n') ∈ ofStmt b st → n'.Reads b') : st.Reads b := by
  cases st with
  | bind constant name type value loc =>
    have hturn : ReadsInTurn b [ofValue value] := h
    rw [stmtIsWellFormed, Bool.and_eq_true] at hwf
    by_cases hfunction : ∃ f, value = .function f
    · obtain ⟨f, rfl⟩ := hfunction
      have hf : f.Reads b := hturn.first
      rw [stmtIsFaithful, Bool.or_eq_true] at hfaithful
      rcases hfaithful with hnone | hown
      · rw [Option.isNone_iff_eq_none] at hnone
        refine Stmt.reads_bind ?_ hwf.1 hwf.2 (Expr.reads_function hnone hf)
        rintro - - f' heq
        obtain rfl := Expr.function.inj heq
        rw [hnone]
        simp
      · simp only [Bool.and_eq_true, Bool.not_eq_true', beq_iff_eq,
          Option.isNone_iff_eq_none] at hown
        obtain ⟨⟨rfl, rfl⟩, hname⟩ := hown
        exact Stmt.reads_define hname hwf.1 hf
    · have hvalue : (expr value).Reads b := by
        have hfirst := hturn.first
        rwa [ofValue] at hfirst
        exact fun f heq => hfunction ⟨f, heq⟩
      exact Stmt.reads_bind (fun _ _ f heq => absurd ⟨f, heq⟩ hfunction) hwf.1
        hwf.2 hvalue.1
  | ret value loc =>
    have hturn : ReadsInTurn b (value.toList.map expr ++ []) := by
      rw [List.append_nil]
      exact h
    exact Stmt.reads_ret hturn.option_expr.1
  | includes modules grouped loc =>
    simp only [stmtIsWellFormed, Bool.and_eq_true, Bool.or_eq_true,
      Bool.not_eq_true', List.isEmpty_eq_false_iff, beq_iff_eq] at hwf
    exact Stmt.reads_includes hwf.1 hwf.2
  | attempt t =>
    have hturn : ReadsInTurn b
      (block t.body :: t.handler.toList.map block) := h
    exact Stmt.reads_attempt hturn.attempt hwf
  | struct name fields loc =>
    rw [stmtIsWellFormed, Bool.and_eq_true] at hwf
    exact Stmt.reads_struct hwf.1 hwf.2
  | enum name variants loc =>
    rw [stmtIsWellFormed, Bool.and_eq_true] at hwf
    exact Stmt.reads_enum hwf.1 hwf.2
  | method struct f loc =>
    have hturn : ReadsInTurn b [function f] := h
    rw [stmtIsWellFormed, Bool.and_eq_true] at hwf
    obtain ⟨name, hname, hident⟩ := (Option.any_eq_true _ _).mp hwf.2
    exact Stmt.reads_method hwf.1 hname hident hturn.first
  | brk loc => exact Stmt.reads_brk
  | cont loc => exact Stmt.reads_cont
  | expr e loc =>
    have hturn : ReadsInTurn b [Node.expr e] := h
    have hattempt : e.startsWithAttempt = false := by
      simpa [stmtIsFaithful] using hfaithful
    refine Stmt.reads_expr hturn.first.1 fun l ls hl => ?_
    obtain ⟨htry, hdefine⟩ := hturn.first.2 l ls hl
    refine ⟨fun hkind => ?_, hdefine⟩
    exact absurd (hattempt.symm.trans (htry hkind)) Bool.false_ne_true

/-- Printable nodes are read from their lexemes. -/
theorem reads_of_every {n : Node} (h : Every Printable b n) : n.Reads b := by
  induction h with
  | @intro b n here _ ih =>
    obtain ⟨hwf, hfaithful, hmode⟩ := here
    cases n with
    | expr e => exact reads_expr hwf hfaithful hmode ih
    | stmt st => exact reads_stmt hwf hfaithful ih
    | block bl =>
      obtain ⟨statements, loc⟩ := bl
      have hturn : ReadsInTurn b (statements.map stmt) := ih
      exact Block.reads_mk hturn.stmts
    | function f =>
      have hturn : ReadsInTurn b [block f.body] := ih
      exact Function.reads_of_body hwf.1 hwf.2 hturn.first

end Node

/-! ### Programs -/

namespace Parser

/-- The lexemes in front of the parser where some statements of a program are
left.  Behind the last one it stays at the end of input. -/
def remaining : List Stmt → List Lexeme
  | [] => [endOfInput, endOfInput]
  | sts => statementsLexemes sts ++ [endOfInput]

/-- The step from a statement to the next one. -/
theorem views_remaining {sts : List Stmt} (h : Stmt.ReadsAll b sts)
    (hs : s.Faces b (statementsLexemes sts ++ [endOfInput])) :
    s.advanced.Views b (remaining sts) := by
  cases sts with
  | nil => exact hs.advanced_last
  | cons st sts =>
    have hne : statementsLexemes (st :: sts) ≠ [] := by
      obtain ⟨l, ls, hl, -⟩ := h.1.opens
      simp [statementsLexemes, hl]
    exact hs.advanced_append hne

theorem runs_program_from {sts read : List Stmt} {fuel : List Token}
    (h : Stmt.ReadsAll b sts) (hn : 2 * (statementsLexemes sts).length < n)
    (hs : s.Views b (remaining sts)) (hfuel : s.ahead.length ≤ fuel.length) :
    Runs (iterate (grammar n).programPass fuel read) s fun sts' s' =>
        sts'.map Stmt.bare = (read.map Stmt.bare).reverse ++ sts.map Stmt.bare ∧
        s'.errors = #[] := by
  induction sts generalizing b s read fuel with
  | nil =>
    have hend : s.current.kind = .eof := hs.current_kind
    refine runs_iterate_done hfuel ?_
    unfold Grammar.programPass
    rw [runs_currentIs_bind, hend, if_pos (by rfl), runs_pure_iff]
    exact ⟨_, rfl, by simp, hs.clean⟩
  | cons st sts ih =>
    obtain ⟨l, ls, hl, hkind⟩ := h.1.opens
    have htwo := h.1.two
    simp only [remaining, statementsLexemes, List.append_assoc] at hs
    simp only [statementsLexemes, List.length_append] at hn
    have hcurrent : s.current.kind ≠ .eof := by
      rw [hl, List.cons_append] at hs
      rw [hs.current_kind]
      rintro heq
      rw [heq] at hkind
      cases hkind
    refine runs_iterate_again hfuel ?_
    unfold Grammar.programPass
    rw [runs_currentIs_bind, if_neg (by simpa using hcurrent)]
    refine Runs.bind (runs_optional (h.runs_first rfl (by omega) hs)) ?_
    rintro st? s' ⟨st', rfl, hst', hfaces⟩
    have hnext := views_remaining h.2 hfaces
    rw [runs_advance_bind, runs_pure_iff]
    refine ⟨_, rfl, ?_, fun fuel' hfuel' => ?_⟩
    · have hlength := congrArg List.length hnext.view
      have hlength' := congrArg List.length hs.view
      cases sts <;>
        simp only [remaining, statementsLexemes, List.length_cons,
          List.length_append, List.length_nil] at hlength hlength' <;>
        omega
    · refine (ih h.2 (by omega) hnext hfuel').mono ?_
      rintro sts' s'' ⟨hsts', hclean⟩
      exact ⟨by simp [hsts', hst'], hclean⟩

/-- The state in front of the tokens of a program. -/
theorem State.views_initial {p : Program} {tokens : List Token}
    (h : Stmt.ReadsAll false p.statements)
    (htokens : tokens.map Token.lexeme = p.lexemes) (file source : String) :
    (initial file source tokens).Views false (remaining p.statements) := by
  obtain ⟨statements, loc⟩ := p
  cases statements with
  | nil =>
    obtain ⟨t, rfl, ht⟩ : ∃ t, tokens = [t] ∧ t.lexeme = endOfInput := by
      simpa [Program.lexemes, statementsLexemes, List.map_eq_cons_iff]
        using htokens
    refine ⟨?_, rfl, rfl⟩
    simp [initial, ahead, remaining, ht]
  | cons st sts =>
    have htwo := h.1.two
    have hlength := congrArg List.length htokens
    simp only [Program.lexemes, statementsLexemes, List.length_map,
      List.length_append, List.length_cons] at hlength
    rcases tokens with _ | ⟨t, _ | ⟨t', rest⟩⟩
    · simp only [List.length_nil] at hlength
      omega
    · simp only [List.length_nil, List.length_cons] at hlength
      omega
    · exact ⟨htokens, rfl, rfl⟩

end Parser

/-- A text whose tokens are those of a printable program is that program. -/
theorem parse_of_lexemes {p : Program} (hp : Node.EveryOf Node.Printable p)
    {source : String}
    (htokens : (tokenize source).map Token.lexeme = p.lexemes) (file : String) :
    ∃ q, parse file source = .ok q ∧ q.bare = p.bare := by
  have hturn : Node.ReadsInTurn false (p.statements.map Node.stmt) :=
    fun b n hn => Node.reads_of_every (hp b n hn)
  have hreads := hturn.stmts
  have hlength := congrArg List.length htokens
  simp only [Program.lexemes, List.length_map, List.length_append,
    List.length_cons, List.length_nil] at hlength
  have hbound : 2 * (statementsLexemes p.statements).length <
      nestingBound (tokenize source).length := by
    unfold nestingBound
    omega
  have hinitial := State.views_initial hreads htokens file source
  have hrun : Runs (program (grammar (nestingBound (tokenize source).length)))
      (State.initial file source (tokenize source)) fun q s' =>
        q.bare = p.bare ∧ s'.errors = #[] := by
    unfold program
    rw [runs_here_bind]
    refine Runs.bind (runs_repeated fun fuel hfuel =>
      runs_program_from hreads hbound hinitial hfuel) ?_
    rintro sts' s' ⟨hsts', hclean⟩
    rw [runs_spanFrom_bind, runs_pure_iff]
    refine ⟨?_, hclean⟩
    simpa [Program.bare, bareStmts_eq_map] using hsts'
  obtain ⟨q, s', hrun, hq, hclean⟩ := hrun
  refine ⟨q, ?_, hq⟩
  unfold parse
  dsimp only
  rw [hrun]
  simp [hclean]

end Script
