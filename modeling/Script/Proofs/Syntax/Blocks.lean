import Script.Proofs.Syntax.Operands

/-!
# Reading blocks and functions
-/

namespace Script

open Lexeme (sign word listed further)
open Node (inCaseAfter)
open Script.Parser

variable {n : Nat} {s : State} {b : Bool} {x : Lexeme} {r : List Lexeme}
  {loc : Location}

/-! ### Statements and blocks that are read -/

/-- The kinds of lexeme that statements start with. -/
def Token.Kind.startsStatement : Token.Kind → Bool
  | .letWord | .constWord | .returnWord | .includeWord | .structWord
  | .enumWord | .breakWord | .continueWord => true
  | kind => kind.startsOperand

/-- The kinds of lexeme that may follow a statement. -/
def Token.Kind.endsStatement (kind : Token.Kind) : Bool :=
  kind ≠ .semicolon && kind ≠ .elseWord && kind ≠ .catchWord

theorem Token.Kind.endsStatement_of_startsStatement {kind : Token.Kind}
    (h : kind.startsStatement = true) : kind.endsStatement = true := by
  cases kind <;> first
    | rfl
    | cases h

/-- A statement is read from its lexemes, with the semicolon if it has one. -/
structure Stmt.Reads (st : Stmt) (b : Bool) : Prop where
  opens : ∃ l ls, st.lexemes = l :: ls ∧ l.kind.startsStatement = true
  two : 2 ≤ st.lexemes.length
  runs : ∀ {n : Nat} {s : State} {x : Lexeme} {r : List Lexeme},
    2 * st.lexemes.length ≤ n → s.Views b (st.lexemes ++ x :: r) →
    x.kind.endsStatement = true →
    Runs (grammar n).statementHere s fun st' s' =>
      st'.bare = st.bare ∧ s'.Faces (inCaseAfter b st.lexemes) (x :: r)

/-- Statements that are read one after another. -/
def Stmt.ReadsAll : Bool → List Stmt → Prop
  | _, [] => True
  | b, st :: sts => st.Reads b ∧ ReadsAll (inCaseAfter b st.lexemes) sts

/-- A block is read where it stands behind the current token. -/
structure Block.Reads (bl : Block) (b : Bool) : Prop where
  runs : ∀ {n : Nat} {x : Lexeme}, 2 * bl.lexemes.length ≤ n →
    ReadsItem (grammar n).nextBlock Block.bare bl.lexemes bl.bare x b

/-- A function is read from its opening parenthesis on. -/
structure Function.Reads (f : Function) (b : Bool) : Prop where
  runs : ∀ {n : Nat} {name : Option String} {start : Location} {s : State}
    {x : Lexeme} {r : List Lexeme}, 2 * f.tailLexemes.length ≤ n →
    s.Views b (f.tailLexemes ++ x :: r) →
    Runs ((grammar n).functionRest name start) s fun f' s' =>
      f'.bare = { f.bare with name } ∧
      s'.Faces (inCaseAfter b f.tailLexemes) (x :: r)

/-! ### Blocks -/

theorem Parser.runs_optional {α : Type} {p : Parser α} {Q : α → State → Prop}
    (h : Runs p s Q) :
    Runs (optional p) s fun a s' => ∃ v, a = some v ∧ Q v s' := by
  obtain ⟨v, s', hrun, hv⟩ := h
  refine ⟨some v, s', ?_, v, rfl, hv⟩
  unfold optional
  rw [hrun]

/-- What comes behind a statement ends it: the next one or the end. -/
theorem Stmt.ReadsAll.next_ends {sts : List Stmt} (h : ReadsAll b sts)
    {stop : Lexeme} (hstop : stop.kind.endsStatement = true)
    (rest : List Lexeme) :
    ∃ y ys, statementsLexemes sts ++ stop :: rest = y :: ys ∧
      y.kind.endsStatement = true := by
  cases sts with
  | nil => exact ⟨stop, rest, rfl, hstop⟩
  | cons st sts =>
    obtain ⟨l, ls, hl, hkind⟩ := h.1.opens
    refine ⟨l, ls ++ statementsLexemes sts ++ stop :: rest, ?_,
      Token.Kind.endsStatement_of_startsStatement hkind⟩
    simp [statementsLexemes, hl]

/-- One statement of several, and the step to the token behind it. -/
theorem Stmt.ReadsAll.runs_first {st : Stmt} {sts : List Stmt}
    (h : ReadsAll b (st :: sts)) {stop : Lexeme}
    (hstop : stop.kind.endsStatement = true) {rest : List Lexeme}
    (hn : 2 * st.lexemes.length < n)
    (hs : s.Views b (st.lexemes ++ (statementsLexemes sts ++ stop :: rest))) :
    Runs (grammar n).statement s fun st' s' =>
      st'.bare = st.bare ∧
      s'.Faces (inCaseAfter b st.lexemes)
        (statementsLexemes sts ++ stop :: rest) := by
  obtain ⟨y, ys, hy, hends⟩ := h.2.next_ends hstop rest
  rw [hy] at hs ⊢
  cases n with
  | zero => omega
  | succ n => exact h.1.runs (by omega) hs hends

theorem Parser.runs_block_from {sts read : List Stmt} {fuel : List Token}
    (h : Stmt.ReadsAll b sts) (hn : 2 * (statementsLexemes sts).length < n)
    (hs : s.Views b (statementsLexemes sts ++ sign .rbrace :: x :: r))
    (hfuel : s.ahead.length ≤ fuel.length) :
    Runs (iterate (grammar n).blockPass fuel read) s fun sts' s' =>
        sts'.map Stmt.bare = (read.map Stmt.bare).reverse ++ sts.map Stmt.bare ∧
        s'.Faces (inCaseAfter b (statementsLexemes sts)) (x :: r) := by
  induction sts generalizing b s read fuel with
  | nil =>
    refine runs_iterate_done hfuel ?_
    unfold Grammar.blockPass
    rw [runs_current_bind, hs.current_sign]
    refine runs_pure_iff.mpr ⟨_, rfl, by simp, ?_⟩
    simpa [statementsLexemes] using hs.faces
  | cons st sts ih =>
    simp only [statementsLexemes, List.length_append] at hn
    simp only [statementsLexemes, List.append_assoc] at hs
    obtain ⟨l, ls, hl, hkind⟩ := h.1.opens
    have hcurrent : s.current.kind = l.kind := by
      rw [hl, List.cons_append] at hs
      exact hs.current_kind
    refine runs_iterate_again hfuel ?_
    unfold Grammar.blockPass
    rw [runs_current_bind]
    split
    · next heq =>
      rw [← hcurrent, heq] at hkind
      cases hkind
    · next heq =>
      rw [← hcurrent, heq] at hkind
      cases hkind
    · refine Runs.bind (runs_optional (h.runs_first rfl (by omega) hs)) ?_
      rintro st? s' ⟨st', rfl, hst', hfaces⟩
      have hnext : s'.advanced.Views (inCaseAfter b st.lexemes)
          (statementsLexemes sts ++ sign .rbrace :: x :: r) :=
        hfaces.advanced_two
      rw [runs_advance_bind, runs_pure_iff]
      refine ⟨_, rfl, ?_, fun fuel' hfuel' => ?_⟩
      · have hlength := congrArg List.length hnext.view
        have hlength' := congrArg List.length hs.view
        rw [hl] at hlength'
        simp only [List.length_cons, List.length_append] at hlength hlength'
        omega
      · refine (ih h.2 (by omega) hnext hfuel').mono ?_
        rintro sts' s'' ⟨hsts', hfaces'⟩
        refine ⟨by simp [hsts', hst'], ?_⟩
        simpa [statementsLexemes] using hfaces'

theorem Block.reads_mk {sts : List Stmt} (h : Stmt.ReadsAll b sts) :
    (Block.mk sts loc).Reads b := by
  refine ⟨fun {n x} hn s r hs => ?_⟩
  simp only [Block.lexemes, List.cons_append, List.append_assoc,
    List.nil_append, List.length_cons, List.length_append] at hn hs ⊢
  have hopen := hs.step (by simp)
  have hinside : s.advanced.advanced.Views b
      (statementsLexemes sts ++ sign .rbrace :: x :: r) := hopen.advanced_two
  unfold Grammar.nextBlock
  rw [runs_expect_bind hs.next_sign]
  unfold Grammar.block
  rw [runs_here_bind, runs_advance_bind]
  refine Runs.bind (runs_repeated fun fuel hfuel =>
    runs_block_from h (by omega) hinside hfuel) ?_
  rintro sts' s' ⟨hsts', hfaces⟩
  rw [runs_spanFrom_bind, runs_pure_iff]
  refine ⟨?_, by simpa using hfaces⟩
  simpa [Block.bare, bareStmts_eq_map] using hsts'

end Script
