import Script.Proofs.Syntax.Reading

/-!
# Reading expressions

An expression is an operand and the operators behind it.  Printed expressions
are operands, except that a call and a member are operators behind what they are
applied to.  So what is said of an expression is that the parser, at its first
lexeme, comes to the loop over operators with that expression.  Whether the loop
goes on depends on the lexeme behind.
-/

namespace Script

open Lexeme (sign word listed further)
open Node (inCaseAfter)
open Script.Parser

/-! ### The first lexemes of an expression -/

/-- The kinds of lexeme that printed expressions start with. -/
def Token.Kind.startsOperand : Token.Kind → Bool
  | .ident | .int | .float | .str | .trueWord | .falseWord | .lparen
  | .lbracket | .lbrace | .ifWord | .whileWord | .forWord | .switchWord
  | .tryWord | .defineWord | .spread => true
  | kind => kind.isType

/-- The lexemes can start an expression, and a name at their start is not the
start of a list of names. -/
def Opens (ls : List Lexeme) : Prop :=
  ∃ l ls', ls = l :: ls' ∧ l.kind.startsOperand = true ∧
    (l.kind = .ident → ∀ l' ∈ ls'.head?,
      l'.kind ≠ .comma ∧ l'.kind ≠ .rparen ∧ l'.kind ≠ .inWord)

theorem Opens.ne_nil {ls : List Lexeme} (h : Opens ls) : ls ≠ [] := by
  obtain ⟨l, ls', rfl, -⟩ := h
  exact List.cons_ne_nil l ls'

/-- An expression does not start with a kind that cannot start one. -/
theorem Opens.first_ne {ls : List Lexeme} (h : Opens ls) (kind : Token.Kind)
    (hkind : kind.startsOperand = false) :
    ∃ l ls', ls = l :: ls' ∧ l.kind ≠ kind := by
  obtain ⟨l, ls', rfl, hstart, -⟩ := h
  refine ⟨l, ls', rfl, ?_⟩
  rintro rfl
  rw [hkind] at hstart
  cases hstart

theorem opens_of_kind {l : Lexeme} {ls : List Lexeme}
    (hstart : l.kind.startsOperand = true) (hl : l.kind ≠ .ident) :
    Opens (l :: ls) :=
  ⟨l, ls, rfl, hstart, fun h => absurd h hl⟩

/-- What is behind the first lexemes of an expression does not matter, unless it
is a comma or the like. -/
theorem Opens.append {ls : List Lexeme} (h : Opens ls) {x : Lexeme}
    {r : List Lexeme}
    (hx : x.kind ≠ .comma ∧ x.kind ≠ .rparen ∧ x.kind ≠ .inWord) :
    Opens (ls ++ x :: r) := by
  obtain ⟨l, ls', rfl, hstart, hsecond⟩ := h
  refine ⟨l, ls' ++ x :: r, rfl, hstart, fun hl l' hl' => ?_⟩
  cases ls' with
  | nil =>
    rw [List.nil_append, List.head?_cons, Option.mem_some_iff] at hl'
    exact hl' ▸ hx
  | cons l'' ls' => exact hsecond hl l' hl'

/-! ### What may follow an expression -/

/-- The lexeme `x` behind an expression does not change what the expression is.
Operators that bind tighter than a spread would get inside it, and a brace
behind a name opens a struct instantiation, unless the values of a `case` are
being read. -/
structure Expr.Follows (e : Expr) (b : Bool) (x : Lexeme) : Prop where
  not_else : x.kind ≠ .elseWord
  not_catch : x.kind ≠ .catchWord
  spread : e.isSpread = true →
    (Precedence.ofKind x.kind).level ≤ Precedence.unary.level
  name : e.endsInName = true → x.kind = .lbrace → b = true

/-- The kinds that may follow any expression. -/
def Token.Kind.endsOperand (kind : Token.Kind) : Bool :=
  kind ≠ .elseWord && kind ≠ .catchWord && kind ≠ .lbrace &&
    (Precedence.ofKind kind).level ≤ Precedence.unary.level

theorem Expr.follows_of_endsOperand {e : Expr} {b : Bool} {x : Lexeme}
    (hx : x.kind.endsOperand = true) : e.Follows b x := by
  unfold Token.Kind.endsOperand at hx
  simp only [Bool.and_eq_true, decide_eq_true_eq] at hx
  obtain ⟨⟨⟨helse, hcatch⟩, hbrace⟩, hlevel⟩ := hx
  exact ⟨helse, hcatch, fun _ => hlevel, fun _ hlbrace => absurd hlbrace hbrace⟩

/-- The kinds that may follow any expression but a spread. -/
theorem Expr.follows_of_not_spread {e : Expr} {b : Bool} {x : Lexeme}
    (he : e.isSpread = false) (helse : x.kind ≠ .elseWord)
    (hcatch : x.kind ≠ .catchWord) (hbrace : x.kind ≠ .lbrace) :
    e.Follows b x :=
  ⟨helse, hcatch, fun h => absurd (he.symm.trans h) Bool.false_ne_true,
    fun _ hlbrace => absurd hlbrace hbrace⟩

/-! ### Expressions that are read -/

/-- The parser comes to the loop over operators with an expression, in front of
the lexemes `rest`. -/
def Parser.Comes (n : Nat) (precedence : Precedence) (s : State) (e : Expr)
    (b : Bool) (rest : List Lexeme) : Prop :=
  ∃ fuel e' s', s'.ahead.length ≤ fuel.length ∧
    (e'.bare = e.bare ∧ s'.Faces b rest) ∧
    (grammar n).expressionHere precedence s =
      iterate ((grammar n).operatorPass precedence) fuel e' s'

/-- The expression is read from its lexemes, up to the operators behind it. -/
structure Expr.Reads (e : Expr) (b : Bool) : Prop where
  opens : Opens e.lexemes
  comes : ∀ {n : Nat} {precedence : Precedence} {s : State} {x : Lexeme}
    {r : List Lexeme}, 2 * e.lexemes.length ≤ n →
    precedence.level < Precedence.call.level →
    s.Views b (e.lexemes ++ x :: r) → e.Follows b x →
    Comes n precedence s e (inCaseAfter b e.lexemes) (x :: r)

variable {n : Nat} {precedence : Precedence} {e whole : Expr} {s : State}
  {b b' : Bool} {x op : Lexeme} {r ls : List Lexeme}

/-- Behind an operand comes the loop over operators. -/
theorem Parser.comes_of_operandHere
    (h : Runs (grammar n).operandHere s fun e' s' =>
      e'.bare = e.bare ∧ s'.Faces b (x :: r)) :
    Comes n precedence s e b (x :: r) := by
  obtain ⟨e', s', hrun, he'⟩ := h
  refine ⟨s'.current :: s'.current :: s'.next :: s'.rest, e', s', ?_, he', ?_⟩
  · simp [State.ahead]
  · rw [Grammar.expressionHere_eq, bind_ok hrun]
    rfl

/-- An expression that is read as an operand. -/
theorem Expr.reads_of_operandHere (hopens : Opens e.lexemes)
    (h : ∀ {n : Nat} {s : State} {x : Lexeme} {r : List Lexeme},
      2 * e.lexemes.length ≤ n → s.Views b (e.lexemes ++ x :: r) →
      e.Follows b x → Runs (grammar n).operandHere s fun e' s' =>
        e'.bare = e.bare ∧ s'.Faces (inCaseAfter b e.lexemes) (x :: r)) :
    e.Reads b where
  opens := hopens
  comes := fun hn _ hs hfollows => comes_of_operandHere (h hn hs hfollows)

/-- The loop ends in front of a lexeme that does not bind. -/
theorem Parser.Comes.runs (h : Comes n precedence s e b (x :: r))
    (hx : (Precedence.ofKind x.kind).level ≤ precedence.level) :
    Runs ((grammar n).expressionHere precedence) s fun e' s' =>
      e'.bare = e.bare ∧ s'.Faces b (x :: r) := by
  obtain ⟨fuel, e', s', hfuel, hQ, heq⟩ := h
  have hdone : Runs (iterate ((grammar n).operatorPass precedence) fuel e') s'
      fun e'' s'' => e''.bare = e.bare ∧ s''.Faces b (x :: r) := by
    refine runs_iterate_done hfuel ?_
    unfold Grammar.operatorPass
    rw [runs_nextKind_bind, hQ.2.next_kind, if_neg (by omega), runs_pure_iff]
    exact ⟨e', rfl, hQ⟩
  obtain ⟨e'', s'', hrun, hQ'⟩ := hdone
  exact ⟨e'', s'', heq.trans hrun, hQ'⟩

/-- The loop takes an operator that binds. -/
theorem Parser.Comes.then_operator (h : Comes n precedence s e b (op :: ls))
    (hlength : r.length < ls.length) (hop : op.kind ≠ .semicolon)
    (hlevel : precedence.level < (Precedence.ofKind op.kind).level)
    (hoperator : ∀ e' s', e'.bare = e.bare → s'.Views b (op :: ls) →
      Runs ((grammar n).operatorHere e') s' fun e'' s'' =>
        e''.bare = whole.bare ∧ s''.Faces b' (x :: r)) :
    Comes n precedence s whole b' (x :: r) := by
  obtain ⟨fuel, e', s', hfuel, ⟨he', hfaces⟩, heq⟩ := h
  have hls : ls ≠ [] := List.length_pos_iff.mp (by omega)
  have hpass : Runs ((grammar n).operatorPass precedence e') s'
      fun pass s'' => ∃ e'', pass = .again e'' ∧
        s''.ahead.length < s'.ahead.length ∧
        (e''.bare = whole.bare ∧ s''.Faces b' (x :: r)) := by
    unfold Grammar.operatorPass
    rw [runs_nextKind_bind, hfaces.next_kind, if_pos ⟨hop, hlevel⟩,
      runs_advance_bind]
    refine Runs.bind (hoperator e' s'.advanced he' (hfaces.advanced hls)) ?_
    rintro e'' s'' hQ
    rw [runs_pure_iff]
    refine ⟨e'', rfl, ?_, hQ⟩
    rw [hQ.2.ahead, hfaces.ahead, List.length_cons, List.length_cons]
    omega
  obtain ⟨fuel', e'', s'', hfuel', hQ, heq'⟩ := iterate_again hfuel hpass
  exact ⟨fuel', e'', s'', hfuel', hQ, heq.trans heq'⟩

/-- An expression behind the current token, up to a lexeme that never binds. -/
theorem Expr.Reads.operand (h : e.Reads b)
    (hn : 2 * e.lexemes.length < n) (hfollows : e.Follows b x)
    (hx : (Precedence.ofKind x.kind).level = 0) :
    ReadsItem (grammar n).operand Expr.bare e.lexemes e.bare x b := by
  intro s r hs
  cases n with
  | zero => omega
  | succ n =>
    unfold Grammar.operand
    rw [runs_advance_bind]
    exact (h.comes (by omega) (by decide) (hs.advanced_append h.opens.ne_nil)
      hfollows).runs (Nat.le_of_eq hx)

/-! ### Parentheses -/

/-- What stands in parentheses is read on its own, unless it looks like the
parameters of an arrow function. -/
theorem Parser.runs_group {l : Lexeme} (hl : l.kind ≠ .rparen) (hls : ls ≠ [])
    (hsecond : l.kind = .ident → ∀ l' ∈ ls.head?,
      l'.kind ≠ .comma ∧ l'.kind ≠ .rparen)
    (hs : s.Views b (sign .lparen :: l :: ls))
    (hinner : ∀ s', s'.Views b (l :: ls) →
      Runs ((grammar n).expression .lowest) s' fun e' s'' =>
        e'.bare = whole.bare ∧ s''.Faces b' (sign .rparen :: x :: r)) :
    Runs (grammar n).operandHere s fun e' s' =>
      e'.bare = whole.bare ∧ s'.Faces b' (x :: r) := by
  have hinside := hs.faces.advanced hls
  have hplain : ∀ kind, kind = .comma ∨ kind = .rparen →
      ¬ ((s.advanced.current.kind == .ident) = true ∧
        s.advanced.next.kind = kind) := by
    rintro kind hkind ⟨hident, hnext⟩
    rw [beq_iff_eq, hinside.current_kind] at hident
    cases ls with
    | nil => contradiction
    | cons l' ls =>
      have hl' := hsecond hident l' rfl
      rw [hinside.next_kind] at hnext
      rcases hkind with rfl | rfl
      · exact hl'.1 hnext
      · exact hl'.2 hnext
  unfold Grammar.operandHere
  rw [runs_current_bind, runs_here_bind, hs.current_sign]
  unfold Grammar.groupHere
  rw [runs_here_bind, runs_nextIs_bind,
    if_neg (by rw [hs.next_kind]; simpa using hl), runs_advance_bind,
    runs_currentIs_bind, runs_nextKind_bind, if_neg (hplain _ (Or.inl rfl)),
    if_neg (hplain _ (Or.inr rfl))]
  refine Runs.bind (hinner _ hinside) ?_
  rintro e' s' ⟨he', hfaces⟩
  rw [runs_expect_bind hfaces.next_sign, runs_pure_iff]
  exact ⟨he', hfaces.step (by simp)⟩

/-- An expression in parentheses that is an operand and an operator behind
it. -/
theorem Expr.reads_of_operator (op : Lexeme) (ls : List Lexeme) (h : e.Reads b)
    (hlexemes : whole.lexemes =
      sign .lparen :: (e.lexemes ++ op :: (ls ++ [sign .rparen])))
    (hfollows : e.Follows b op) (hsemicolon : op.kind ≠ .semicolon)
    (hop : op.kind ≠ .comma ∧ op.kind ≠ .rparen ∧ op.kind ≠ .inWord)
    (hlevel : 0 < (Precedence.ofKind op.kind).level)
    (hoperator : ∀ {n : Nat} {s : State} {e' : Expr} {x : Lexeme}
      {r : List Lexeme}, 2 * ls.length < n → e'.bare = e.bare →
      s.Views (inCaseAfter b e.lexemes)
        (op :: (ls ++ sign .rparen :: x :: r)) →
      Runs ((grammar n).operatorHere e') s fun e'' s' =>
        e''.bare = whole.bare ∧
        s'.Faces (inCaseAfter (inCaseAfter b e.lexemes) (op :: ls))
          (sign .rparen :: x :: r)) :
    whole.Reads b := by
  refine reads_of_operandHere ?_ ?_
  · rw [hlexemes]
    exact opens_of_kind rfl (by simp)
  · intro n s x r hn hs _
    rw [hlexemes] at hn hs ⊢
    simp only [List.cons_append, List.append_assoc, List.nil_append,
      List.length_cons, List.length_append] at hn hs
    obtain ⟨l, ls', hl, hstart, hsecond⟩ :=
      h.opens.append (r := ls ++ sign .rparen :: x :: r) hop
    have hafter : inCaseAfter b
        (sign .lparen :: (e.lexemes ++ op :: (ls ++ [sign .rparen]))) =
        inCaseAfter (inCaseAfter b e.lexemes) (op :: ls) := by
      rw [Node.inCaseAfter_sign (by simp), Node.inCaseAfter_append,
        ← List.cons_append, Node.inCaseAfter_append]
      simp
    have hls' : ls' ≠ [] := by
      rintro rfl
      have := congrArg List.length hl
      simp at this
      omega
    rw [hafter]
    rw [hl] at hs
    refine runs_group ?_ hls' ?_ hs fun s' hs' => ?_
    · rintro heq
      rw [heq] at hstart
      cases hstart
    · exact fun hident l' hl' => ⟨(hsecond hident l' hl').1,
        (hsecond hident l' hl').2.1⟩
    · rw [← hl] at hs'
      cases n with
      | zero => omega
      | succ n =>
        have hcomes : Comes n .lowest s' e _ _ :=
          h.comes (by omega) (by decide) hs' hfollows
        refine (hcomes.then_operator ?_ hsemicolon hlevel
          fun e' s' he' hs' => hoperator (by omega) he' hs').runs (by decide)
        simp only [List.length_append, List.length_cons]
        omega

end Script
