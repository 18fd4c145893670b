import Script.Proofs.Syntax.Functions

/-!
# Reading conditionals, loops and switches
-/

namespace Script

open Lexeme (sign word listed further)
open Node (inCaseAfter)
open Syntax (annotationLexemes)
open Script.Parser

variable {n : Nat} {s : State} {b : Bool} {x : Lexeme} {r : List Lexeme}
  {loc : Location}

/-- An expression in parentheses behind a keyword. -/
theorem Parser.runs_condition {e : Expr} (he : e.Reads b)
    (hn : 2 * e.lexemes.length < n)
    (hs : s.Faces b (sign .lparen :: (e.lexemes ++ sign .rparen :: x :: r))) :
    Runs (grammar n).condition s fun e' s' =>
      e'.bare = e.bare ∧ s'.Faces (inCaseAfter b e.lexemes) (x :: r) := by
  unfold Grammar.condition
  rw [runs_expect_bind hs.next_sign]
  refine Runs.bind (he.operand hn (Expr.follows_of_endsOperand rfl) rfl _ _
    (hs.step (by simp))) ?_
  rintro e' s' ⟨he', hfaces⟩
  rw [runs_expect_bind hfaces.next_sign, runs_pure_iff]
  exact ⟨he', hfaces.step (by simp)⟩

/-- A block starts with its brace. -/
theorem Block.lexemes_eq (bl : Block) :
    bl.lexemes = sign .lbrace ::
      (statementsLexemes bl.statements ++ [sign .rbrace]) := by
  cases bl
  rfl

/-! ### Conditionals and `while` -/

theorem Expr.reads_branch {condition : Expr} {consequence : Block}
    {alternative : Option Block} (hcondition : condition.Reads b)
    (hconsequence : consequence.Reads (inCaseAfter b condition.lexemes))
    (halternative : ∀ bl ∈ alternative, bl.Reads (inCaseAfter
      (inCaseAfter b condition.lexemes) consequence.lexemes)) :
    (Expr.branch condition consequence alternative loc).Reads b := by
  refine reads_of_operandHere (opens_of_kind rfl (by simp)) ?_
  intro n s x r hn hs hfollows
  simp only [Expr.lexemes, List.cons_append, List.append_assoc,
    List.length_cons, List.length_append] at hn hs ⊢
  unfold Grammar.operandHere
  rw [runs_current_bind, runs_here_bind, hs.current_sign]
  change Runs (grammar n).branchHere _ _
  unfold Grammar.branchHere
  rw [runs_here_bind]
  have hcond := hs.faces
  rw [Block.lexemes_eq, List.cons_append] at hcond
  refine Runs.bind (runs_condition hcondition (by omega) hcond) ?_
  rintro condition' s₁ ⟨hcondition', hfaces₁⟩
  rw [← List.cons_append, ← Block.lexemes_eq] at hfaces₁
  cases alternative with
  | none =>
    refine Runs.bind (hconsequence.runs (by omega) s₁ r hfaces₁) ?_
    rintro consequence' s₂ ⟨hconsequence', hfaces₂⟩
    have hnext : s₂.next.kind ≠ .elseWord := by
      rw [hfaces₂.next_kind]
      exact hfollows.not_else
    rw [runs_nextIs_bind, if_neg (by simpa using hnext), runs_spanFrom_bind,
      runs_pure_iff]
    refine ⟨by simp [Expr.bare, hcondition', hconsequence', bareBlock?], ?_⟩
    simpa [alternativeLexemes] using hfaces₂
  | some bl =>
    simp only [alternativeLexemes, List.cons_append, List.length_cons] at hn hfaces₁
    refine Runs.bind (hconsequence.runs (by omega) s₁ _ hfaces₁) ?_
    rintro consequence' s₂ ⟨hconsequence', hfaces₂⟩
    have hnext : s₂.next.kind = .elseWord := hfaces₂.next_kind
    have hblock := hfaces₂.step (by simp)
    have hbrace : s₂.advanced.next.kind = .lbrace := by
      rw [bl.lexemes_eq, List.cons_append] at hblock
      exact hblock.next_kind
    rw [runs_nextIs_bind, hnext, if_pos (by rfl), runs_advance_bind]
    refine Runs.bind (Q := fun bl' s' => bl'.bare = bl.bare ∧
      s'.Faces (inCaseAfter (inCaseAfter (inCaseAfter b condition.lexemes)
        consequence.lexemes) bl.lexemes) (x :: r)) ?_ ?_
    · unfold Grammar.alternative
      rw [runs_nextIs_bind, hbrace, if_neg (by decide)]
      exact (halternative bl rfl).runs (by omega) _ r hblock
    · rintro bl' s₃ ⟨hbl', hfaces₃⟩
      rw [runs_spanFrom_bind, runs_pure_iff]
      refine ⟨by simp [Expr.bare, hcondition', hconsequence', hbl', bareBlock?],
        ?_⟩
      simpa [alternativeLexemes] using hfaces₃

theorem Expr.reads_whileLoop {condition : Expr} {body : Block}
    (hcondition : condition.Reads b)
    (hbody : body.Reads (inCaseAfter b condition.lexemes)) :
    (Expr.whileLoop condition body loc).Reads b := by
  refine reads_of_operandHere (opens_of_kind rfl (by simp)) ?_
  intro n s x r hn hs _
  simp only [Expr.lexemes, List.cons_append, List.append_assoc,
    List.length_cons, List.length_append] at hn hs ⊢
  unfold Grammar.operandHere
  rw [runs_current_bind, runs_here_bind, hs.current_sign]
  change Runs (grammar n).whileHere _ _
  unfold Grammar.whileHere
  rw [runs_here_bind]
  have hcond := hs.faces
  rw [Block.lexemes_eq, List.cons_append] at hcond
  refine Runs.bind (runs_condition hcondition (by omega) hcond) ?_
  rintro condition' s₁ ⟨hcondition', hfaces₁⟩
  rw [← List.cons_append, ← Block.lexemes_eq] at hfaces₁
  refine Runs.bind (hbody.runs (by omega) s₁ r hfaces₁) ?_
  rintro body' s₂ ⟨hbody', hfaces₂⟩
  rw [runs_spanFrom_bind, runs_pure_iff]
  refine ⟨by simp [Expr.bare, hcondition', hbody'], ?_⟩
  simpa using hfaces₂

/-! ### Functions -/

/-- A function goes on with its parameters. -/
theorem Function.exists_tailLexemes (f : Function) :
    ∃ ls, f.tailLexemes = sign .lparen :: ls := by
  obtain ⟨name, params, returns, body, loc⟩ := f
  rw [tailLexemes, Params.lexemes_eq_marked, List.append_assoc,
    List.cons_append]
  exact ⟨_, rfl⟩

/-- A function without a name. -/
theorem Expr.reads_function {f : Function} (hname : f.name = none)
    (hf : f.Reads b) : (Expr.function f).Reads b := by
  refine reads_of_operandHere (opens_of_kind rfl (by simp)) ?_
  intro n s x r hn hs _
  simp only [Expr.lexemes, List.cons_append, List.length_cons] at hn hs ⊢
  obtain ⟨ls, htail⟩ := f.exists_tailLexemes
  have hopen : s.advanced.Views b (f.tailLexemes ++ x :: r) :=
    hs.faces.advanced_append (by rw [htail]; simp)
  have hnext : s.next.kind = .lparen := by
    rw [htail, List.cons_append] at hs
    exact hs.next_kind
  unfold Grammar.operandHere
  rw [runs_current_bind, runs_here_bind, hs.current_sign]
  change Runs (grammar n).functionHere _ _
  unfold Grammar.functionHere
  rw [runs_here_bind]
  refine Runs.bind (Q := fun name' s' => name' = none ∧ s' = s) ?_ ?_
  · rw [runs_nextIs_bind, hnext, if_neg (by decide), runs_pure_iff]
    exact ⟨rfl, rfl⟩
  · rintro name' s' ⟨rfl, rfl⟩
    rw [runs_expect_bind hnext]
    refine Runs.bind (hf.runs (by omega) hopen) ?_
    rintro f' s'' ⟨hf', hfaces⟩
    rw [runs_pure_iff, Node.inCaseAfter_sign (by simp)]
    refine ⟨?_, hfaces⟩
    rw [Expr.bare, Expr.bare, hf']
    obtain ⟨name, params, returns, body, loc⟩ := f
    cases hname
    rfl

/-! ### `try` -/

def Attempt.Reads (t : Attempt) (b : Bool) : Prop :=
  t.body.Reads b ∧ ∀ bl ∈ t.handler, bl.Reads (inCaseAfter b t.body.lexemes)

/-- The parameter of a handler; the current token is `catch`. -/
theorem Parser.runs_catchParam {param : Option Name} {bl : Block}
    (hparam : param.all Name.isIdentifier = true)
    (hs : s.Views b (handlerLexemes param (some bl) ++ x :: r)) :
    Runs Grammar.catchParam s fun param' s' =>
      param'.map Name.bare = param.map Name.bare ∧
      s'.Faces b (bl.lexemes ++ x :: r) := by
  unfold Grammar.catchParam
  rw [runs_nextIs_bind]
  cases param with
  | none =>
    simp only [handlerLexemes, List.cons_append, List.nil_append] at hs
    have hnext : s.next.kind = .lbrace := by
      rw [Block.lexemes_eq] at hs
      exact hs.next_kind
    rw [hnext, if_neg (by decide), runs_pure_iff]
    exact ⟨rfl, hs.faces⟩
  | some name =>
    simp only [handlerLexemes, List.cons_append, List.nil_append] at hs
    have hopen : s.next.kind = .lparen := hs.next_kind
    have hident := hs.faces.step (by simp)
    have hname := hident.advanced (by simp)
    have hclose := hname.faces
    have hkind : name.lexeme.kind = .ident := Name.kind_lexeme hparam
    rw [hopen, if_pos (by rfl), runs_advance_bind,
      runs_expect_bind (hident.next_kind.trans hkind), runs_nameHere_bind,
      runs_expect_bind hclose.next_sign, runs_pure_iff]
    refine ⟨by simp [Name.bare_mk hname.current_text], hclose.step ?_⟩
    simp

/-- A handler changes the mode for case values as its block does. -/
theorem Syntax.inCaseAfter_handler {param : Option Name} {bl : Block}
    (hparam : param.all Name.isIdentifier = true) :
    inCaseAfter b (handlerLexemes param (some bl)) =
      inCaseAfter b bl.lexemes := by
  cases param with
  | none => simp [handlerLexemes]
  | some name =>
    have hkind : name.lexeme.kind ≠ .caseWord := by
      rw [Name.kind_lexeme hparam]
      simp
    simp [handlerLexemes, Node.inCaseAfter_cons hkind]

theorem Attempt.Reads.runs {t : Attempt} (h : t.Reads b)
    (ht : Node.attemptIsWellFormed t = true) (hn : 2 * t.lexemes.length ≤ n)
    (hx : x.kind ≠ .catchWord) (hs : s.Views b (t.lexemes ++ x :: r)) :
    Runs (grammar n).attempt s fun t' s' =>
      t'.bare = t.bare ∧ s'.Faces (inCaseAfter b t.lexemes) (x :: r) := by
  obtain ⟨body, param, handler, loc⟩ := t
  obtain ⟨hbody, hhandler⟩ := h
  rw [Node.attemptIsWellFormed, Bool.and_eq_true] at ht
  dsimp only at ht hbody hhandler
  simp only [Attempt.lexemes, List.cons_append, List.append_assoc,
    List.length_cons, List.length_append] at hn hs ⊢
  rw [Grammar.attempt_eq, runs_here_bind]
  cases handler with
  | none =>
    have hparam : param = none := by simpa using ht.2
    refine Runs.bind (hbody.runs (by omega) s r hs.faces) ?_
    rintro body' s₁ ⟨hbody', hfaces₁⟩
    have hnext : s₁.next.kind ≠ .catchWord := by
      rw [hfaces₁.next_kind]
      exact hx
    rw [runs_nextIs_bind, if_neg (by simpa using hnext), runs_spanFrom_bind,
      runs_pure_iff]
    refine ⟨by simp [Attempt.bare, hbody', hparam, bareBlock?], ?_⟩
    simpa [handlerLexemes] using hfaces₁
  | some bl =>
    obtain ⟨ls, hls⟩ : ∃ ls, handlerLexemes param (some bl) =
        sign .catchWord :: ls := ⟨_, rfl⟩
    have hlength : bl.lexemes.length ≤
        (handlerLexemes param (some bl)).length := by
      simp only [handlerLexemes, List.length_append]
      omega
    rw [hls, List.cons_append] at hs
    refine Runs.bind (hbody.runs (by omega) s _ hs.faces) ?_
    rintro body' s₁ ⟨hbody', hfaces₁⟩
    have hnext : s₁.next.kind = .catchWord := hfaces₁.next_kind
    have hcatch := hfaces₁.advanced (by simp)
    rw [← List.cons_append, ← hls] at hcatch
    rw [runs_nextIs_bind, hnext, if_pos (by rfl), runs_advance_bind]
    refine Runs.bind (runs_catchParam ht.1 hcatch) ?_
    rintro param' s₂ ⟨hparam', hfaces₂⟩
    refine Runs.bind ((hhandler bl rfl).runs (by omega) s₂ r hfaces₂) ?_
    rintro bl' s₃ ⟨hbl', hfaces₃⟩
    rw [runs_spanFrom_bind, runs_pure_iff, Node.inCaseAfter_sign (by simp),
      Node.inCaseAfter_append, Syntax.inCaseAfter_handler ht.1]
    exact ⟨by simp [Attempt.bare, hbody', hparam', hbl', bareBlock?], hfaces₃⟩

theorem Expr.reads_attempt {t : Attempt} (h : t.Reads b)
    (ht : Node.attemptIsWellFormed t = true) : (Expr.attempt t).Reads b := by
  refine reads_of_operandHere ?_ ?_
  · obtain ⟨body, param, handler, loc⟩ := t
    exact opens_of_kind rfl (by simp)
  · intro n s x r hn hs hfollows
    rw [Expr.lexemes] at hn hs ⊢
    have hcurrent : s.current.kind = .tryWord := by
      obtain ⟨body, param, handler, loc⟩ := t
      exact hs.current_kind
    unfold Grammar.operandHere
    rw [runs_current_bind, runs_here_bind, hcurrent]
    refine Runs.bind (h.runs ht hn hfollows.not_catch hs) ?_
    rintro t' s' ⟨ht', hfaces⟩
    rw [runs_pure_iff]
    exact ⟨by rw [Expr.bare, Expr.bare, ht'], hfaces⟩

/-! ### `for` -/

/-- A variable with its value, up to a semicolon. -/
theorem Parser.runs_binding (constant : Bool) (loc : Location) {name : Name}
    {type : Option TypeExpr} {value : Expr} (hname : name.isIdentifier = true)
    (htype : type.all TypeExpr.isWellFormed = true) (hvalue : value.Reads b)
    (hn : 2 * ((annotationLexemes type).length + value.lexemes.length) < n)
    (hs : s.Faces b (name.lexeme :: (annotationLexemes type ++ sign .assign ::
      (value.lexemes ++ sign .semicolon :: r)))) :
    Runs ((grammar n).binding constant) s fun st' s' =>
      st'.bare = (Stmt.bind constant name type value loc).bare ∧
      s'.Faces (inCaseAfter b value.lexemes) (sign .semicolon :: r) := by
  have hident := hs.advanced (by simp)
  unfold Grammar.binding
  rw [runs_here_bind,
    runs_expect_bind (by rw [hs.next_kind, Name.kind_lexeme hname]),
    runs_nameHere_bind]
  refine Runs.bind (runs_typeMark htype (by omega) (by simp) (by simp)
    hident.faces) ?_
  rintro type' s₁ ⟨htype', hfaces₁⟩
  rw [runs_expect_bind hfaces₁.next_sign]
  refine Runs.bind (hvalue.operand (by omega) (Expr.follows_of_endsOperand rfl)
    rfl _ _ (hfaces₁.step (by simp))) ?_
  rintro value' s₂ ⟨hvalue', hfaces₂⟩
  rw [runs_spanFrom_bind, runs_pure_iff]
  refine ⟨?_, hfaces₂⟩
  simp [Stmt.bare, htype', hvalue', Name.bare_mk hident.current_text]

theorem Parser.runs_expressionStatement (loc : Location) {e : Expr} (he : e.Reads b)
    (hn : 2 * e.lexemes.length < n)
    (hs : s.Views b (e.lexemes ++ sign .semicolon :: r)) :
    Runs (grammar n).expressionStatement s fun st' s' =>
      st'.bare = (Stmt.expr e loc).bare ∧
      s'.Faces (inCaseAfter b e.lexemes) (sign .semicolon :: r) := by
  cases n with
  | zero => omega
  | succ n =>
    unfold Grammar.expressionStatement
    refine Runs.bind ((he.comes (by omega) (by decide) hs
      (Expr.follows_of_endsOperand rfl)).runs (Nat.zero_le _)) ?_
    rintro e' s' ⟨he', hfaces⟩
    rw [runs_pure_iff]
    exact ⟨by rw [Stmt.bare, Stmt.bare, he'], hfaces⟩

/-- The first statement of a counting header can be read. -/
def Stmt.ReadsStart (b : Bool) : Stmt → Prop
  | .bind _ name type value _ =>
    name.isIdentifier = true ∧ type.all TypeExpr.isWellFormed = true ∧
      value.Reads b
  | .expr e _ => e.Reads b
  | _ => False

theorem Parser.inCaseAfter_binding {name : Name} {type : Option TypeExpr}
    (hname : name.isIdentifier = true)
    (htype : type.all TypeExpr.isWellFormed = true) (ls : List Lexeme) :
    inCaseAfter b (name.lexeme :: (annotationLexemes type ++ sign .assign ::
      ls)) = inCaseAfter b ls := by
  rw [Node.inCaseAfter_cons (by rw [Name.kind_lexeme hname]; simp),
    Node.inCaseAfter_append, Syntax.inCaseAfter_annotation htype,
    Node.inCaseAfter_sign (by simp)]

theorem Parser.runs_countingStart {start : Option Stmt}
    (hstart : ∀ st ∈ start, Stmt.ReadsStart b st)
    (hn : 2 * (startLexemes start).length < n)
    (hs : s.Views b (startLexemes start ++ sign .semicolon :: x :: r)) :
    Runs (grammar n).countingStart s fun start' s' =>
      bareStmt? start' = bareStmt? start ∧
      s'.Faces (inCaseAfter b (startLexemes start)) (x :: r) := by
  unfold Grammar.countingStart
  rw [runs_current_bind]
  match start with
  | none =>
    rw [show s.current.kind = .semicolon from hs.current_kind]
    exact runs_pure_iff.mpr ⟨rfl, by simpa [startLexemes] using hs.faces⟩
  | some (.bind constant name type value loc) =>
    obtain ⟨hname, htype, hvalue⟩ := hstart _ rfl
    simp only [startLexemes, List.length_cons, List.length_append,
      List.cons_append, List.append_assoc] at hn hs
    have hmain : Runs (do
        let st ← (grammar n).binding constant
        expect .semicolon
        return some st) s fun start' s' =>
        bareStmt? start' =
          bareStmt? (some (.bind constant name type value loc)) ∧
        s'.Faces (inCaseAfter b
          (startLexemes (some (.bind constant name type value loc))))
          (x :: r) := by
      refine Runs.bind (runs_binding constant loc hname htype hvalue (by omega)
        hs.faces) ?_
      rintro st' s' ⟨hst', hfaces⟩
      rw [runs_expect_bind hfaces.next_sign, runs_pure_iff]
      refine ⟨by rw [bareStmt?, bareStmt?, hst'], ?_⟩
      rw [startLexemes, List.cons_append, List.cons_append,
        Node.inCaseAfter_sign (by cases constant <;> simp),
        inCaseAfter_binding hname htype]
      exact hfaces.step (by simp)
    rw [hs.current_sign]
    cases constant <;> exact hmain
  | some (.expr e loc) =>
    have he : e.Reads b := hstart _ rfl
    obtain ⟨l, ls, hl, hkind, -⟩ := he.opens
    have hcurrent : s.current.kind = l.kind := by
      rw [startLexemes, hl] at hs
      exact hs.current_kind
    have hmain : Runs (do
        let st ← (grammar n).expressionStatement
        expect .semicolon
        return some st) s fun start' s' =>
        bareStmt? start' = bareStmt? (some (.expr e loc)) ∧
        s'.Faces (inCaseAfter b (startLexemes (some (.expr e loc))))
          (x :: r) := by
      refine Runs.bind (runs_expressionStatement loc he hn hs) ?_
      rintro st' s' ⟨hst', hfaces⟩
      rw [runs_expect_bind hfaces.next_sign, runs_pure_iff]
      exact ⟨by rw [bareStmt?, bareStmt?, hst'], hfaces.step (by simp)⟩
    split
    · next heq => rw [← hcurrent, heq] at hkind; cases hkind
    · next heq => rw [← hcurrent, heq] at hkind; cases hkind
    · next heq => rw [← hcurrent, heq] at hkind; cases hkind
    · exact hmain
  | some (.ret ..) | some (.includes ..) | some (.attempt _)
  | some (.struct ..) | some (.enum ..) | some (.method ..) | some (.brk _)
  | some (.cont _) => exact (hstart _ rfl).elim

/-- The parts of the header of a `for` loop can be read. -/
def LoopHeader.Reads (b : Bool) : LoopHeader → Prop
  | .items item iterable => item.isIdentifier = true ∧ iterable.Reads b
  | .pairs index value iterable =>
    index.isIdentifier = true ∧ value.isIdentifier = true ∧ iterable.Reads b
  | .counting start condition update =>
    (∀ st ∈ start, Stmt.ReadsStart b st) ∧
    (∀ e ∈ condition, e.Reads (inCaseAfter b (startLexemes start))) ∧
    ∀ e ∈ update, e.Reads (inCaseAfter (inCaseAfter b (startLexemes start))
      (optionLexemes condition))

/-- A counting header does not look like one over a collection. -/
theorem Parser.countingStart_plain {start : Option Stmt}
    (hstart : ∀ st ∈ start, Stmt.ReadsStart b st)
    (hs : s.Views b (startLexemes start ++ sign .semicolon :: x :: r)) :
    ¬ ((s.current.kind == .ident) = true ∧ s.next.kind = .inWord) ∧
      ¬ ((s.current.kind == .ident) = true ∧ s.next.kind = .comma) := by
  match start with
  | none =>
    rw [show s.current.kind = .semicolon from hs.current_kind]
    simp
  | some (.bind constant name type value loc) =>
    have hcurrent : s.current.kind = if constant then .constWord else .letWord :=
      hs.current_kind
    rw [hcurrent]
    cases constant <;> simp
  | some (.expr e loc) =>
    have he : e.Reads b := hstart _ rfl
    obtain ⟨l, ls, hl, hkind, hsecond⟩ :=
      he.opens.append (x := sign .semicolon) (r := x :: r) (by simp)
    rw [startLexemes, hl] at hs
    have hcurrent := hs.current_kind
    cases ls with
    | nil =>
      have hlength := congrArg List.length hl
      simp at hlength
      omega
    | cons l' ls =>
      have hnext := hs.next_kind
      rw [hcurrent, hnext, beq_iff_eq]
      exact ⟨fun h => (hsecond h.1 l' rfl).2.2 h.2,
        fun h => (hsecond h.1 l' rfl).1 h.2⟩
  | some (.ret ..) | some (.includes ..) | some (.attempt _)
  | some (.struct ..) | some (.enum ..) | some (.method ..) | some (.brk _)
  | some (.cont _) => exact (hstart _ rfl).elim

theorem LoopHeader.Reads.runs {header : LoopHeader} (h : header.Reads b)
    (hn : 2 * header.lexemes.length < n)
    (hs : s.Views b (header.lexemes ++ sign .rparen :: x :: r)) :
    Runs (grammar n).loopHeader s fun header' s' =>
      header'.bare = header.bare ∧
      s'.Faces (inCaseAfter b header.lexemes) (x :: r) := by
  unfold Grammar.loopHeader
  rw [runs_currentIs_bind, runs_nextKind_bind]
  cases header with
  | items item iterable =>
    obtain ⟨hitem, hiterable⟩ := h
    have hident := Name.kind_lexeme hitem
    simp only [LoopHeader.lexemes, List.length_cons, List.cons_append] at hn hs
    have hcurrent : s.current.kind = .ident := hs.current_kind.trans hident
    have hnext : s.next.kind = .inWord := hs.next_kind
    rw [hcurrent, hnext, if_pos (by simp), runs_nameHere_bind,
      runs_advance_bind]
    refine Runs.bind (hiterable.operand (by omega)
      (Expr.follows_of_endsOperand rfl) rfl _ _ (hs.faces.step (by simp))) ?_
    rintro iterable' s' ⟨hiterable', hfaces⟩
    rw [runs_expect_bind hfaces.next_sign, runs_pure_iff, LoopHeader.lexemes,
      Node.inCaseAfter_cons (by rw [hident]; simp),
      Node.inCaseAfter_sign (by simp)]
    exact ⟨by simp [LoopHeader.bare, hiterable', Name.bare_mk hs.current_text],
      hfaces.step (by simp)⟩
  | pairs index value iterable =>
    obtain ⟨hindex, hvalue, hiterable⟩ := h
    have hident := Name.kind_lexeme hindex
    have hident' := Name.kind_lexeme hvalue
    simp only [LoopHeader.lexemes, List.length_cons, List.cons_append] at hn hs
    have hcurrent : s.current.kind = .ident := hs.current_kind.trans hident
    have hnext : s.next.kind = .comma := hs.next_kind
    have hcomma := hs.faces.step (by simp)
    have hname := hcomma.advanced (by simp)
    have hin := hname.faces
    rw [hcurrent, hnext, if_neg (by simp), if_pos (by simp),
      runs_nameHere_bind, runs_advance_bind,
      runs_expect_bind (hcomma.next_kind.trans hident'), runs_nameHere_bind,
      runs_expect_bind hin.next_sign]
    refine Runs.bind (hiterable.operand (by omega)
      (Expr.follows_of_endsOperand rfl) rfl _ _ (hin.step (by simp))) ?_
    rintro iterable' s' ⟨hiterable', hfaces⟩
    rw [runs_expect_bind hfaces.next_sign, runs_pure_iff, LoopHeader.lexemes,
      Node.inCaseAfter_cons (by rw [hident]; simp),
      Node.inCaseAfter_sign (by simp),
      Node.inCaseAfter_cons (by rw [hident']; simp),
      Node.inCaseAfter_sign (by simp)]
    refine ⟨?_, hfaces.step (by simp)⟩
    simp [LoopHeader.bare, hiterable', Name.bare_mk hs.current_text,
      Name.bare_mk hname.current_text]
  | counting start condition update =>
    obtain ⟨hstart, hcondition, hupdate⟩ := h
    simp only [LoopHeader.lexemes, List.length_cons, List.length_append,
      List.cons_append, List.append_assoc] at hn hs
    -- Behind the first semicolon comes the condition or the second one.
    obtain ⟨y, ys, hy⟩ : ∃ y ys, optionLexemes condition ++ sign .semicolon ::
        (optionLexemes update ++ sign .rparen :: x :: r) = y :: ys :=
      List.exists_cons_of_ne_nil (by simp)
    rw [hy] at hs
    obtain ⟨hnotItems, hnotPairs⟩ := countingStart_plain hstart hs
    rw [if_neg hnotItems, if_neg hnotPairs]
    refine Runs.bind (runs_countingStart hstart (by omega) hs) ?_
    rintro start' s₁ ⟨hstart', hfaces₁⟩
    rw [← hy] at hfaces₁
    refine Runs.bind (runs_operandUnless rfl rfl rfl hcondition (by omega)
      hfaces₁) ?_
    rintro condition' s₂ ⟨hcondition', hfaces₂⟩
    rw [runs_expect_bind hfaces₂.next_sign]
    refine Runs.bind (runs_operandUnless rfl rfl rfl hupdate (by omega)
      (hfaces₂.step (by simp))) ?_
    rintro update' s₃ ⟨hupdate', hfaces₃⟩
    rw [runs_expect_bind hfaces₃.next_sign, runs_pure_iff]
    refine ⟨?_, by simpa [LoopHeader.lexemes] using hfaces₃.step (by simp)⟩
    simp [LoopHeader.bare, hstart', bareExpr?_eq_map, hcondition', hupdate']

theorem LoopHeader.Reads.ne_nil {header : LoopHeader} :
    header.lexemes ≠ [] := by
  cases header <;> simp [LoopHeader.lexemes]

theorem Expr.reads_forLoop {header : LoopHeader} {body : Block}
    (hheader : header.Reads b)
    (hbody : body.Reads (inCaseAfter b header.lexemes)) :
    (Expr.forLoop header body loc).Reads b := by
  refine reads_of_operandHere (opens_of_kind rfl (by simp)) ?_
  intro n s x r hn hs _
  simp only [Expr.lexemes, List.cons_append, List.append_assoc,
    List.length_cons, List.length_append] at hn hs ⊢
  have hopen := hs.faces
  have hinside := (hopen.step (by simp)).advanced_append
    LoopHeader.Reads.ne_nil
  unfold Grammar.operandHere
  rw [runs_current_bind, runs_here_bind, hs.current_sign]
  change Runs (grammar n).forHere _ _
  unfold Grammar.forHere
  rw [runs_here_bind, runs_expect_bind hopen.next_sign, runs_advance_bind]
  rw [Block.lexemes_eq, List.cons_append] at hinside
  refine Runs.bind (hheader.runs (by omega) hinside) ?_
  rintro header' s₁ ⟨hheader', hfaces₁⟩
  rw [← List.cons_append, ← Block.lexemes_eq] at hfaces₁
  refine Runs.bind (hbody.runs (by omega) s₁ r hfaces₁) ?_
  rintro body' s₂ ⟨hbody', hfaces₂⟩
  rw [runs_spanFrom_bind, runs_pure_iff]
  exact ⟨by simp [Expr.bare, hheader', hbody'], by simpa using hfaces₂⟩

/-! ### `switch` -/

/-- The values of a case are read in their mode, and its body outside it. -/
structure Case.Reads (c : Case) : Prop where
  values : Expr.ReadsAll true c.values
  ne_nil : c.values ≠ []
  mode : Node.caseKeepsMode c = true
  body : c.body.Reads false

theorem Parser.runs_inCaseValues {α : Type} {p : Parser α}
    {Q : α → State → Prop} (h : Runs p { s with inCase := true } Q) :
    Runs (inCaseValues p) s fun a s' =>
      ∃ s'', Q a s'' ∧ s' = { s'' with inCase := false } := by
  obtain ⟨a, s'', hrun, hQ⟩ := h
  refine ⟨a, { s'' with inCase := false }, ?_, s'', hQ, rfl⟩
  unfold inCaseValues
  rw [hrun]

theorem Case.lexemes_eq (c : Case) :
    c.lexemes = sign .caseWord ::
      (listed (c.values.map Expr.lexemes) ++ c.body.lexemes) := by
  obtain ⟨values, body, loc⟩ := c
  rw [lexemes, exprsLexemes_eq_map, List.cons_append]

/-- The last value of a case and the brace behind it. -/
theorem Case.Reads.follows {c : Case} (h : c.Reads) :
    ∀ e ∈ c.values.getLast?, ∀ b', (b' = false →
      inCaseAfter true (listed (c.values.map Expr.lexemes)) = false) →
      e.Follows b' (sign .lbrace) := by
  intro e he b' hb'
  refine ⟨by simp, by simp, fun _ => Nat.zero_le _, fun hname _ => ?_⟩
  have hmode := h.mode
  unfold Node.caseKeepsMode at hmode
  rw [he, exprsLexemes_eq_map] at hmode
  simp only [Option.any_some, hname, Bool.not_true, Bool.false_or] at hmode
  cases b' with
  | true => rfl
  | false => exact absurd (hmode.symm.trans (hb' rfl)) (by simp)

theorem Case.Reads.runs {c : Case} (h : c.Reads)
    (hn : 2 * c.lexemes.length ≤ n) (hs : s.Views b (c.lexemes ++ x :: r)) :
    Runs (grammar n).caseHere s fun c' s' =>
      c'.bare = c.bare ∧ s'.Faces false (x :: r) := by
  rw [Case.lexemes_eq] at hn hs
  simp only [List.cons_append, List.append_assoc, List.length_cons,
    List.length_append] at hn hs
  have heach : ReadsEach (grammar n).operand Expr.bare Expr.lexemes Expr.bare
      (sign .lbrace) true c.values := by
    refine h.values.each (fun e he => ?_) h.follows rfl
    have hlength : e.lexemes.length ≤
        (listed (c.values.map Expr.lexemes)).length :=
      Lexeme.length_le_listed (List.mem_map_of_mem he)
    omega
  have hvalues : ({ s with inCase := true } : State).Faces true
      (listed (c.values.map Expr.lexemes) ++ (c.body.lexemes ++ x :: r)) :=
    ⟨hs.faces.ahead, rfl, hs.clean⟩
  obtain ⟨values, body, loc⟩ := c
  obtain ⟨value, values, rfl⟩ := List.exists_cons_of_ne_nil h.ne_nil
  dsimp only at heach hvalues
  rw [Block.lexemes_eq, List.cons_append] at hvalues
  unfold Grammar.caseHere
  rw [runs_here_bind]
  refine Runs.bind (runs_inCaseValues
    (runs_commaList (by simp) heach hvalues)) ?_
  rintro values' s₁ ⟨s₁', ⟨hvalues', hfaces₁⟩, rfl⟩
  have hbrace : s₁'.next.kind = .lbrace := hfaces₁.next_kind
  have hbody : ({ s₁' with inCase := false } : State).Faces false
      (body.lexemes ++ x :: r) := by
    rw [Block.lexemes_eq, List.cons_append]
    exact ⟨hfaces₁.ahead, rfl, hfaces₁.clean⟩
  refine Runs.bind (Q := fun _ s' => s' = { s₁' with inCase := false }) ?_ ?_
  · unfold Grammar.skipColon
    rw [runs_nextIs_bind]
    dsimp only
    rw [hbrace, if_neg (by decide)]
    exact runs_pure_iff.mpr rfl
  · rintro _ s' rfl
    refine Runs.bind (h.body.runs (by omega) _ r hbody) ?_
    rintro body' s₂ ⟨hbody', hfaces₂⟩
    rw [runs_spanFrom_bind, runs_pure_iff]
    refine ⟨?_, hfaces₂⟩
    simp [Case.bare, hbody', bareExprs_eq_map, hvalues']

/-- The end of a switch, with its default if there is one. -/
theorem Parser.runs_switch_end {default : Option Block} {read : List Case}
    {fuel : List Token} (hdefault : ∀ bl ∈ default, bl.Reads b)
    (hn : 2 * (defaultLexemes default).length ≤ n)
    (hs : s.Views b (defaultLexemes default ++ sign .rbrace :: x :: r))
    (hfuel : s.ahead.length ≤ fuel.length) :
    Runs (iterate (grammar n).casePass fuel (read, none)) s fun result s' =>
      (result.1 = read.reverse ∧ bareBlock? result.2 = bareBlock? default) ∧
      s'.Faces (inCaseAfter b (defaultLexemes default)) (x :: r) := by
  have hend : ∀ {s : State} {b : Bool} {fuel : List Token}
      {default' : Option Block}, s.Views b (sign .rbrace :: x :: r) →
      s.ahead.length ≤ fuel.length →
      Runs (iterate (grammar n).casePass fuel (read, default')) s
        fun result s' => (result.1 = read.reverse ∧ result.2 = default') ∧
          s'.Faces b (x :: r) := by
    intro s b fuel default' hs hfuel
    refine runs_iterate_done hfuel ?_
    unfold Grammar.casePass
    rw [runs_current_bind, hs.current_sign]
    exact runs_pure_iff.mpr ⟨_, rfl, ⟨rfl, rfl⟩, hs.faces⟩
  cases default with
  | none =>
    refine (hend hs hfuel).mono ?_
    rintro result s' ⟨⟨hcases, hnone⟩, hfaces⟩
    exact ⟨⟨hcases, by rw [hnone]⟩, by simpa [defaultLexemes] using hfaces⟩
  | some bl =>
    simp only [defaultLexemes, List.length_cons, List.cons_append] at hn hs
    have hbrace : s.next.kind = .lbrace := by
      rw [Block.lexemes_eq] at hs
      exact hs.next_kind
    refine runs_iterate_again hfuel ?_
    unfold Grammar.casePass
    rw [runs_current_bind, hs.current_sign]
    change Runs ((grammar n).defaultHere >>= _) _ _
    refine Runs.bind (Q := fun bl' s' => bl'.bare = bl.bare ∧
      s'.Faces (inCaseAfter b bl.lexemes) (sign .rbrace :: x :: r)) ?_ ?_
    · unfold Grammar.defaultHere Grammar.skipColon
      refine Runs.bind (Q := fun _ s' => s' = s) ?_ ?_
      · rw [runs_nextIs_bind, hbrace, if_neg (by decide)]
        exact runs_pure_iff.mpr rfl
      · rintro _ s' rfl
        exact (hdefault bl rfl).runs (by omega) _ _ hs.faces
    · rintro bl' s' ⟨hbl', hfaces⟩
      rw [runs_advance_bind, runs_pure_iff]
      refine ⟨_, rfl, ?_, fun fuel' hfuel' => ?_⟩
      · rw [(hfaces.step (by simp)).ahead, hs.faces.ahead]
        simp only [List.length_append, List.length_cons]
        omega
      · refine (hend (hfaces.advanced (by simp)) hfuel').mono ?_
        rintro result s'' ⟨⟨hcases, hsome⟩, hfaces'⟩
        refine ⟨⟨hcases, by rw [hsome, bareBlock?, bareBlock?, hbl']⟩, ?_⟩
        simpa [defaultLexemes] using hfaces'

/-- The lexemes of cases switch the mode off, if there are any. -/
theorem Node.inCaseAfter_cases (c : Case) (cs : List Case) :
    inCaseAfter b (casesLexemes (c :: cs)) = false := by
  rw [casesLexemes, Case.lexemes_eq, List.cons_append, inCaseAfter_case]

theorem Parser.runs_switch_from {cs read : List Case} {default : Option Block}
    {fuel : List Token} (hcases : ∀ c ∈ cs, c.Reads)
    (hdefault : ∀ bl ∈ default, bl.Reads (inCaseAfter b (casesLexemes cs)))
    (hn : 2 * ((casesLexemes cs).length + (defaultLexemes default).length) ≤ n)
    (hs : s.Views b (casesLexemes cs ++ (defaultLexemes default ++
      sign .rbrace :: x :: r)))
    (hfuel : s.ahead.length ≤ fuel.length) :
    Runs (iterate (grammar n).casePass fuel (read, none)) s fun result s' =>
      (result.1.map Case.bare =
        (read.map Case.bare).reverse ++ cs.map Case.bare ∧
      bareBlock? result.2 = bareBlock? default) ∧
      s'.Faces (inCaseAfter (inCaseAfter b (casesLexemes cs))
        (defaultLexemes default)) (x :: r) := by
  induction cs generalizing b s read fuel with
  | nil =>
    simp only [casesLexemes, Node.inCaseAfter_nil, List.nil_append,
      List.length_nil] at hdefault hn hs ⊢
    refine (runs_switch_end hdefault (by omega) hs hfuel).mono ?_
    rintro result s' ⟨⟨hread, hdefault'⟩, hfaces⟩
    exact ⟨⟨by simp [hread], hdefault'⟩, hfaces⟩
  | cons c cs ih =>
    have hc := hcases c List.mem_cons_self
    rw [Node.inCaseAfter_cases] at hdefault ⊢
    simp only [casesLexemes, List.append_assoc, List.length_append] at hn hs
    have hcurrent : s.current.kind = .caseWord := by
      rw [Case.lexemes_eq, List.cons_append] at hs
      exact hs.current_kind
    obtain ⟨y, ys, hy⟩ : ∃ y ys, casesLexemes cs ++ (defaultLexemes default ++
        sign .rbrace :: x :: r) = y :: ys :=
      List.exists_cons_of_ne_nil (by simp)
    have hys : ys ≠ [] := by
      rintro rfl
      have hlength := congrArg List.length hy
      simp at hlength
      omega
    rw [hy] at hs
    refine runs_iterate_again hfuel ?_
    unfold Grammar.casePass
    rw [runs_current_bind, hcurrent]
    change Runs ((grammar n).caseHere >>= _) _ _
    refine Runs.bind (hc.runs (by omega) hs) ?_
    rintro c' s' ⟨hc', hfaces⟩
    rw [runs_advance_bind, runs_pure_iff]
    refine ⟨_, rfl, ?_, fun fuel' hfuel' => ?_⟩
    · rw [(hfaces.step hys).ahead]
      have hlength := congrArg List.length hs.view
      rw [Case.lexemes_eq] at hlength
      simp only [List.length_cons, List.length_append] at hlength
      omega
    · have hnext := hfaces.advanced hys
      rw [← hy] at hnext
      have hmode : inCaseAfter false (casesLexemes cs) = false := rfl
      refine (ih (fun d hd => hcases d (List.mem_cons_of_mem c hd))
        (hmode ▸ hdefault) (by omega) hnext hfuel').mono ?_
      rintro result s'' ⟨⟨hresult, hdefault'⟩, hfaces'⟩
      exact ⟨⟨by simp [hresult, hc'], hdefault'⟩, hfaces'⟩

theorem Expr.reads_switch {subject : Expr} {cases : List Case}
    {default : Option Block} (hsubject : subject.Reads b)
    (hcases : ∀ c ∈ cases, c.Reads)
    (hdefault : ∀ bl ∈ default, bl.Reads
      (inCaseAfter b (subject.lexemes ++ casesLexemes cases))) :
    (Expr.switch subject cases default loc).Reads b := by
  refine reads_of_operandHere (opens_of_kind rfl (by simp)) ?_
  intro n s x r hn hs _
  simp only [Expr.lexemes, List.cons_append, List.append_assoc,
    List.nil_append, List.length_cons, List.length_append] at hn hs ⊢
  rw [Node.inCaseAfter_append] at hdefault
  unfold Grammar.operandHere
  rw [runs_current_bind, runs_here_bind, hs.current_sign]
  change Runs (grammar n).switchHere _ _
  unfold Grammar.switchHere
  rw [runs_here_bind]
  refine Runs.bind (runs_condition hsubject (by omega) hs.faces) ?_
  rintro subject' s₁ ⟨hsubject', hfaces₁⟩
  have hopen := hfaces₁.step (by simp)
  have hinside : s₁.advanced.advanced.Views (inCaseAfter b subject.lexemes)
      (casesLexemes cases ++ (defaultLexemes default ++
        sign .rbrace :: x :: r)) := by
    rw [← List.append_assoc] at hopen ⊢
    exact hopen.advanced_two
  rw [runs_expect_bind hfaces₁.next_sign, runs_advance_bind]
  refine Runs.bind (runs_repeated fun fuel hfuel =>
    runs_switch_from hcases hdefault (by omega) hinside hfuel) ?_
  rintro ⟨cases', default'⟩ s₂ ⟨⟨hcases', hdefault'⟩, hfaces₂⟩
  dsimp only at hcases' hdefault' ⊢
  rw [runs_spanFrom_bind, runs_pure_iff]
  refine ⟨?_, by simpa using hfaces₂⟩
  simp [Expr.bare, hsubject', bareCases_eq_map, hcases', hdefault']

end Script
