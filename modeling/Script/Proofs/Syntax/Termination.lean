import Script.Proofs.Syntax.Productions
import Script.Syntax.Parser

/-!
# Parsing comes to an end

A grammar with `n` productions inside one another serves states with fewer than `b`
pending tokens if `2 * b ≤ n`: at most two productions start at one token, a statement
and the expression that it is.  So on every source text the parser reaches the end of
input.  On its way no production moves back, and no loop goes on without consuming a
token.
-/

namespace Script

namespace Parser

variable {α β σ : Type} {E : Prop} {z : Zone} {b n : Nat} {g : Grammar} {s : State}

/-! ### At the end of input -/

/-- No expression starts at the end of input. -/
theorem leads_expressionHere_eof (hcurrent : s.current.kind = .eof)
    (precedence : Precedence) {R : Expr → State → Prop} :
    Leads E (g.expressionHere precedence) s R := by
  have hoperand : Leads E g.operandHere s fun _ _ => False := by
    unfold Grammar.operandHere
    rw [leads_current_bind, hcurrent, leads_here_bind]
    dsimp only
    rw [if_neg (by decide)]
    exact leads_fail
  exact hoperand.bind fun _ _ _ hfalse => hfalse.elim

theorem leads_typeHere_eof (hcurrent : s.current.kind = .eof)
    {R : TypeExpr → State → Prop} : Leads E g.typeHere s R := by
  unfold Grammar.typeHere
  rw [leads_here_bind, leads_current_bind, hcurrent]
  exact leads_unexpected

theorem leads_branchHere_eof (hs : s.Ended) (hcurrent : s.current.kind = .eof)
    {R : Expr → State → Prop} : Leads E g.branchHere s R := by
  have hcondition : Leads E g.condition s fun _ _ => False := by
    unfold Grammar.condition
    refine leads_expect.bind ?_
    rintro _ s' _ ⟨-, hnext⟩
    rw [hs.next_eof hcurrent] at hnext
    cases hnext
  exact hcondition.bind fun _ _ _ hfalse => hfalse.elim

theorem leads_statementHere_eof (hcurrent : s.current.kind = .eof)
    (hexpression : Leads E (g.expression .lowest) s fun _ _ => False)
    {R : Stmt → State → Prop} : Leads E g.statementHere s R := by
  have hbody : Leads E g.statementBody s fun _ _ => False := by
    unfold Grammar.statementBody
    rw [leads_current_bind, hcurrent]
    exact hexpression.bind fun _ _ _ hfalse => hfalse.elim
  exact hbody.bind fun _ _ _ hfalse => hfalse.elim

/-! ### Every grammar -/

/-- What one more production inside another adds. -/
theorem Grammar.Serves.succ (hg : (grammar n).Serves E b)
    (hexpression : Goes E (.nearly b) ((grammar n).expression .lowest))
    (heof : ∀ s : State, s.current.kind = .eof →
      Leads E ((grammar n).expression .lowest) s fun _ _ => False) :
    (grammar (n + 1)).Serves E (b + 1) where
  expression precedence := (hg.expressionHere precedence).below_succ
    fun _ _ hcurrent => leads_expressionHere_eof hcurrent precedence
  statement := (hg.statementHere id hexpression).below_succ
    fun s _ hcurrent => leads_statementHere_eof hcurrent (heof s hcurrent)
  branch := hg.branchHere.below_succ fun _ hs hcurrent => leads_branchHere_eof hs hcurrent
  type := hg.typeHere.below_succ fun _ _ hcurrent => leads_typeHere_eof hcurrent

theorem Grammar.Serves.imp {E' : Prop} (hg : g.Serves E b) (hE : E → E') :
    g.Serves E' b where
  expression precedence := (hg.expression precedence).imp hE
  statement := hg.statement.imp hE
  branch := hg.branch.imp hE
  type := hg.type.imp hE

/-- An expression starts with the token that it is about to take. -/
theorem goes_expression (hserves : ∀ m, m + 1 = n → (grammar m).Serves (m < 2 * b) b)
    (precedence : Precedence) :
    Goes (n < 2 * b + 1) (.nearly b) ((grammar n).expression precedence) := by
  cases n with
  | zero => exact fun _ _ _ => Nat.succ_pos (2 * b)
  | succ m => exact ((hserves m rfl).expressionHere precedence).imp Nat.succ_lt_succ

theorem leads_expression_eof (hcurrent : s.current.kind = .eof) (precedence : Precedence)
    {R : Expr → State → Prop} : Leads (n = 0) ((grammar n).expression precedence) s R := by
  cases n with
  | zero => exact rfl
  | succ m => exact leads_expressionHere_eof hcurrent precedence

theorem serves_grammar (n b : Nat) : (grammar n).Serves (n < 2 * b) b := by
  induction n using Nat.strongRecOn generalizing b with
  | ind n ih =>
    cases b with
    | zero =>
      have hnone {s : State} (hz : (Zone.below 0).holds s) : False :=
        Nat.not_lt_zero _ hz
      exact ⟨fun _ _ _ hz => (hnone hz).elim, fun _ _ hz => (hnone hz).elim,
        fun _ _ hz => (hnone hz).elim, fun _ _ hz => (hnone hz).elim⟩
    | succ b =>
      cases n with
      | zero =>
        have hsmall : 0 < 2 * (b + 1) := by omega
        exact ⟨fun _ _ _ _ => hsmall, fun _ _ _ => hsmall, fun _ _ _ => hsmall,
          fun _ _ _ => hsmall⟩
      | succ n =>
        have hexpression : Goes (n < 2 * b + 1) (.nearly b)
            ((grammar n).expression .lowest) :=
          goes_expression (fun m hm => ih m (by omega) b) .lowest
        refine ((ih n (Nat.lt_succ_self n) b).imp ?_).succ (hexpression.imp ?_) ?_
        · omega
        · omega
        · exact fun s hcurrent =>
            (leads_expression_eof hcurrent .lowest).imp (by omega)

/-! ### Every production and every loop -/

/-- The state that a parser leaves, whether it succeeds or fails. -/
def Outcome.state? : Outcome α → Option State
  | .ok _ s => some s
  | .failed s => some s
  | .exhausted => none

/-- The productions of a grammar. -/
inductive Production (g : Grammar) : {α : Type} → Parser α → Prop where
  | program : Production g (program g)
  | statement : Production g g.statement
  | statementHere : Production g g.statementHere
  | statementBody : Production g g.statementBody
  | expressionStatement : Production g g.expressionStatement
  | block : Production g g.block
  | nextBlock : Production g g.nextBlock
  | binding (constant : Bool) : Production g (g.binding constant)
  | definition : Production g g.definition
  | returning : Production g g.returning
  | attempt : Production g g.attempt
  | inclusion : Production g inclusion
  | nextString : Production g nextString
  | structDeclaration : Production g structDeclaration
  | enumDeclaration : Production g enumDeclaration
  | variant : Production g variant
  | signedInteger : Production g signedInteger
  | integerHere : Production g integerHere
  | type : Production g g.type
  | typeHere : Production g g.typeHere
  | typeMark? : Production g g.typeMark?
  | nextType : Production g g.nextType
  | parameter : Production g g.parameter
  | parameters : Production g g.parameters
  | returnTypes : Production g g.returnTypes
  | functionRest (name : Option String) (start : Location) :
      Production g (g.functionRest name start)
  | branch : Production g g.branch
  | branchHere : Production g g.branchHere
  | alternative : Production g g.alternative
  | condition : Production g g.condition
  | whileHere : Production g g.whileHere
  | forHere : Production g g.forHere
  | loopHeader : Production g g.loopHeader
  | countingStart : Production g g.countingStart
  | operandUnless (stop : Token.Kind) : Production g (g.operandUnless stop)
  | switchHere : Production g g.switchHere
  | caseHere : Production g g.caseHere
  | defaultHere : Production g g.defaultHere
  | skipColon : Production g Grammar.skipColon
  | expression (precedence : Precedence) : Production g (g.expression precedence)
  | expressionHere (precedence : Precedence) :
      Production g (g.expressionHere precedence)
  | operand : Production g g.operand
  | operandHere : Production g g.operandHere
  | expressionList (close : Token.Kind) : Production g (g.expressionList close)
  | nameOrRecord : Production g g.nameOrRecord
  | field : Production g g.field
  | mapHere : Production g g.mapHere
  | entry : Production g g.entry
  | arrayHere : Production g g.arrayHere
  | floatHere : Production g floatHere
  | unaryHere : Production g g.unaryHere
  | spreadHere : Production g g.spreadHere
  | groupHere : Production g g.groupHere
  | arrowBody (params : List Name) (start : Location) :
      Production g (g.arrowBody params start)
  | functionHere : Production g g.functionHere
  | operatorHere (left : Expr) : Production g (g.operatorHere left)
  | binaryHere (left : Expr) (op : BinaryOp) : Production g (g.binaryHere left op)
  | assignHere (target : Expr) (op : AssignOp) : Production g (g.assignHere target op)
  | rangeHere (start : Expr) : Production g (g.rangeHere start)
  | ternaryHere (condition : Expr) : Production g (g.ternaryHere condition)
  | arrowHere (left : Expr) : Production g (g.arrowHere left)
  | callHere (callee : Expr) : Production g (g.callHere callee)
  | indexHere (left : Expr) : Production g (g.indexHere left)
  | sliceStop : Production g g.sliceStop
  | memberHere (object : Expr) : Production g (Grammar.memberHere object)
  | stepHere (target : Expr) (op : StepOp) : Production g (Grammar.stepHere target op)

/-- The passes of the loops of a grammar. -/
inductive Repeats (g : Grammar) : {σ β : Type} → (σ → Parser (Pass σ β)) → Prop where
  | program : Repeats g g.programPass
  | block : Repeats g g.blockPass
  | structFields : Repeats g fieldPass
  | variants : Repeats g variantPass
  | cases : Repeats g g.casePass
  | caseValues : Repeats g (listPass g.operand)
  | entries : Repeats g (bracePass g.entry)
  | recordFields : Repeats g (bracePass g.field)
  | items (close : Token.Kind) : Repeats g (g.itemPass close)
  | modules : Repeats g (listPass nextString)
  | parameters : Repeats g (listPass g.parameter)
  | returnTypes : Repeats g (listPass g.nextType)
  | arrowParameters : Repeats g Grammar.namePass
  | operators (precedence : Precedence) : Repeats g (g.operatorPass precedence)

theorem Grammar.Serves.program (hg : g.Serves E b) :
    Goes E (.below b) (Parser.program g) := by
  rw [program_eq]
  exact goes_here.bind fun _ => (goes_repeated hg.loops_programPass []).bind fun _ =>
    goes_spanFrom.bind fun _ => goes_pure

theorem Production.goes {p : Parser α} (h : Production g p) (hg : g.Serves E b) :
    Goes E (.below b) p := by
  cases h with
  | program => exact hg.program
  | statement => exact hg.statement
  | statementHere => exact hg.statementHere Goes.below (hg.expression .lowest)
  | statementBody => exact hg.statementBody Goes.below (hg.expression .lowest)
  | expressionStatement => exact goes_expressionStatement (hg.expression .lowest)
  | block => exact hg.block.below
  | nextBlock => exact hg.nextBlock.below
  | binding constant => exact (hg.binding constant).below
  | definition => exact hg.definition.below
  | returning => exact hg.returning.below
  | attempt => exact hg.attempt.below
  | inclusion => exact goes_inclusion
  | nextString => exact goes_nextString
  | structDeclaration => exact goes_structDeclaration
  | enumDeclaration => exact goes_enumDeclaration
  | variant => exact goes_variant
  | signedInteger => exact goes_signedInteger
  | integerHere => exact goes_integerHere
  | type => exact hg.type
  | typeHere => exact hg.typeHere.below
  | typeMark? => exact hg.typeMark?.below
  | nextType => exact hg.nextType.below
  | parameter => exact hg.parameter.below
  | parameters => exact hg.parameters.below
  | returnTypes => exact hg.returnTypes.below
  | functionRest name start => exact (hg.functionRest name start).below
  | branch => exact hg.branch
  | branchHere => exact hg.branchHere.below
  | alternative => exact hg.alternative.below
  | condition => exact hg.condition.below
  | whileHere => exact hg.whileHere.below
  | forHere => exact hg.forHere.below
  | loopHeader => exact hg.loopHeader
  | countingStart => exact hg.countingStart
  | operandUnless stop => exact (hg.operandUnless stop).below
  | switchHere => exact hg.switchHere.below
  | caseHere => exact hg.caseHere.below
  | defaultHere => exact hg.defaultHere.below
  | skipColon => exact goes_skipColon
  | expression precedence => exact hg.expression precedence
  | expressionHere precedence => exact (hg.expressionHere precedence).below
  | operand => exact hg.operand.below
  | operandHere => exact hg.operandHere.below
  | expressionList close => exact (hg.expressionList close).below
  | nameOrRecord => exact hg.nameOrRecord.below
  | field => exact hg.field.goes.below
  | mapHere => exact hg.mapHere.below
  | entry => exact hg.entry.goes.below
  | arrayHere => exact hg.arrayHere.below
  | floatHere => exact goes_floatHere
  | unaryHere => exact hg.unaryHere.below
  | spreadHere => exact hg.spreadHere.below
  | groupHere => exact hg.groupHere.below
  | arrowBody params start => exact (hg.arrowBody params start).below
  | functionHere => exact hg.functionHere.below
  | operatorHere left => exact (hg.operatorHere left).below
  | binaryHere left op => exact (hg.binaryHere left op).below
  | assignHere target op => exact (hg.assignHere target op).below
  | rangeHere start => exact (hg.rangeHere start).below
  | ternaryHere condition => exact (hg.ternaryHere condition).below
  | arrowHere left => exact (hg.arrowHere left).below
  | callHere callee => exact (hg.callHere callee).below
  | indexHere left => exact (hg.indexHere left).below
  | sliceStop => exact hg.sliceStop.below
  | memberHere object => exact goes_memberHere object
  | stepHere target op => exact goes_stepHere target op

theorem Repeats.loops {body : σ → Parser (Pass σ β)} (h : Repeats g body)
    (hg : g.Serves E b) : Loops E (.below b) body := by
  cases h with
  | program => exact hg.loops_programPass
  | block => exact hg.loops_blockPass
  | structFields => exact loops_fieldPass
  | variants => exact loops_variantPass
  | cases => exact hg.loops_casePass.below
  | caseValues => exact (loops_listPass hg.operand).below
  | entries => exact (loops_bracePass hg.entry).below
  | recordFields => exact (loops_bracePass hg.field).below
  | items close => exact (hg.loops_itemPass close).below
  | modules => exact loops_listPass goes_nextString
  | parameters => exact (loops_listPass hg.parameter).below
  | returnTypes => exact (loops_listPass hg.nextType).below
  | arrowParameters => exact loops_namePass
  | operators precedence => exact (hg.loops_operatorPass precedence).below

/-! ### Programs -/

/-- What is optional succeeds. -/
theorem Leads.runs_optional {p : Parser α} {R : α → State → Prop}
    (h : Leads False p s R) : Runs (optional p) s fun _ s' => s.Forward s' := by
  unfold Leads at h
  unfold Runs Parser.optional
  cases hrun : p s with
  | ok a s' =>
    rw [hrun] at h
    exact ⟨some a, s', rfl, h.1⟩
  | failed s' =>
    rw [hrun] at h
    exact ⟨none, s', rfl, h⟩
  | exhausted =>
    rw [hrun] at h
    exact h.elim

/-- A program goes on after every statement, also after one that failed. -/
theorem runs_programPass (hg : g.Serves False b) (hs : s.Ended) (hz : s.pending < b)
    (hcurrent : s.current.kind ≠ .eof) (statements : List Stmt) :
    Runs (g.programPass statements) s fun pass s' =>
      ∃ statements', pass = .again statements' ∧ s.Consumes s' := by
  unfold Grammar.programPass
  rw [runs_currentIs_bind, if_neg (by simpa using hcurrent)]
  refine (hg.statement s hs hz).runs_optional.bind fun statement s' hforward => ?_
  rw [runs_advance_bind, runs_pure_iff]
  exact ⟨_, rfl, hcurrent, hforward.advanced⟩

/-- So it comes to the end of input, with a pass for each token that is pending. -/
theorem runs_iterate_programPass (hg : g.Serves False b) (hs : s.Ended)
    (hz : s.pending < b) (fuel : List Token) (hfuel : s.pending < fuel.length)
    (statements : List Stmt) :
    Runs (iterate g.programPass fuel statements) s fun _ s' =>
      s'.current.kind = .eof := by
  induction fuel generalizing s statements with
  | nil => cases hfuel
  | cons t fuel ih =>
    by_cases hcurrent : s.current.kind = .eof
    · have hdone : Runs (g.programPass statements) s fun pass s' =>
          pass = .done statements.reverse ∧ s' = s := by
        unfold Grammar.programPass
        rw [runs_currentIs_bind, if_pos (by simpa using hcurrent), runs_pure_iff]
        exact ⟨rfl, rfl⟩
      obtain ⟨_, s', hrun, rfl, rfl⟩ := hdone
      exact ⟨statements.reverse, s', iterate_of_done hrun t fuel, hcurrent⟩
    · obtain ⟨_, s', hrun, statements', rfl, hconsumes⟩ :=
        runs_programPass hg hs hz hcurrent statements
      have hlt := hconsumes.pending_lt hs
      rw [List.length_cons] at hfuel
      obtain ⟨result, s'', hrest, heof⟩ := ih (hs.forward hconsumes.toForward)
        (by omega) (by omega) statements'
      exact ⟨result, s'', (iterate_of_again hrun t fuel).trans hrest, heof⟩

theorem runs_program (hs : s.Ended) (hn : nestingBound s.pending ≤ n) :
    Runs (program (grammar n)) s fun _ s' => s'.current.kind = .eof := by
  have hg : (grammar n).Serves False (s.pending + 1) :=
    (serves_grammar n (s.pending + 1)).imp fun hlt => by
      unfold nestingBound at hn
      omega
  have hloop : Runs (repeated (grammar n).programPass []) s fun _ s' =>
      s'.current.kind = .eof :=
    runs_iterate_programPass hg hs (Nat.lt_succ_self _) (s.current :: s.tokens)
      s.pending_lt_passes []
  rw [program_eq, runs_here_bind]
  refine hloop.bind fun statements s' heof => ?_
  rw [runs_spanFrom_bind, runs_pure_iff]
  exact heof

/-! ### Source texts -/

/-- The last token is the end of input, and no other one is. -/
def EndsOnce (tokens : List Token) : Prop :=
  ∃ front last, tokens = front ++ [last] ∧ last.kind = .eof ∧
    ∀ t ∈ front, t.kind ≠ .eof

theorem endsOnce_tokensAfter (before : List Token) (cursor : Cursor)
    (hbefore : ∀ t ∈ before, t.kind ≠ .eof) : EndsOnce (cursor.tokensAfter before) := by
  induction before, cursor using Cursor.tokensAfter.induct with
  | case1 before cursor hend =>
    rw [Cursor.tokensAfter, if_pos hend, List.reverse_cons]
    exact ⟨before.reverse, _, rfl, hend, fun t ht => hbefore t (List.mem_reverse.mp ht)⟩
  | case2 before cursor hmore ih =>
    rw [Cursor.tokensAfter, if_neg hmore]
    refine ih fun t ht => ?_
    rcases List.mem_cons.mp ht with rfl | ht
    · exact hmore
    · exact hbefore t ht

theorem endsOnce_tokenize (source : String) : EndsOnce (tokenize source) :=
  endsOnce_tokensAfter [] _ (by simp)

/-- A lone end of input is also the next token. -/
theorem tokens_initial {file source : String} {front : List Token} {last : Token} :
    (State.initial file source (front ++ [last])).tokens =
      if front = [] then [last, last] else front ++ [last] := by
  match front with
  | [] => rfl
  | [t] => rfl
  | t :: t' :: front => rfl

theorem ended_initial {file source : String} {tokens : List Token}
    (h : EndsOnce tokens) : (State.initial file source tokens).Ended := by
  obtain ⟨front, last, rfl, hlast, hfront⟩ := h
  have hnever : ∀ t ∈ front, ∀ t' : Token, t.kind = .eof → t'.kind = .eof :=
    fun t ht _ heof => absurd heof (hfront t ht)
  refine ⟨?_, ?_⟩
  · rw [tokens_initial]
    split
    · simp
    · rw [List.pairwise_append]
      exact ⟨List.pairwise_of_forall_mem_list fun t ht t' _ => hnever t ht t',
        List.pairwise_singleton _ _, fun t ht t' _ => hnever t ht t'⟩
  · rw [tokens_initial]
    split <;> simpa using hlast

theorem pending_initial_le {file source : String} {tokens : List Token}
    (h : EndsOnce tokens) :
    (State.initial file source tokens).pending ≤ tokens.length := by
  obtain ⟨front, last, rfl, hlast, -⟩ := h
  unfold State.pending
  rw [tokens_initial]
  split
  · simp [hlast]
  · exact List.countP_le_length

/-! ### What is known of a state that a parser leaves -/

theorem Leads.forward {p : Parser α} {R : α → State → Prop} (h : Leads E p s R)
    {s' : State} (hs' : s' ∈ (p s).state?) : s.Forward s' := by
  unfold Leads at h
  cases hrun : p s with
  | ok a s'' =>
    rw [hrun] at h hs'
    cases hs'
    exact h.1
  | failed s'' =>
    rw [hrun] at h hs'
    cases hs'
    exact h
  | exhausted =>
    rw [hrun] at hs'
    cases hs'

theorem Leads.of_exhausted {p : Parser α} {R : α → State → Prop} (h : Leads E p s R)
    (hrun : p s = .exhausted) : E := by
  unfold Leads at h
  rw [hrun] at h
  exact h

theorem Leads.of_ok {p : Parser α} {R : α → State → Prop} (h : Leads E p s R) {a : α}
    {s' : State} (hrun : p s = .ok a s') : R a s' := by
  unfold Leads at h
  rw [hrun] at h
  exact h.2

end Parser

open Script.Parser

/-- On every source text, however malformed, the parser comes to an end, with the end of
input as its current token.  No production moves back, and none runs out of bounds if the
bound is that of the tokens it has left.  Every pass of a loop that asks for another one
consumes a token that is not the end of input. -/
theorem parsing_ends :
    (∀ file source n, nestingBound (tokenize source).length ≤ n →
      (State.initial file source (tokenize source)).Ended ∧
        ∃ p s, program (grammar n) (State.initial file source (tokenize source)) =
          .ok p s ∧ s.current.kind = .eof) ∧
    (∀ n {α : Type} {p : Parser α}, Production (grammar n) p → ∀ s : State, s.Ended →
      (nestingBound s.pending ≤ n → p s ≠ .exhausted) ∧
        ∀ s' ∈ (p s).state?, s.Forward s' ∧ s'.Ended) ∧
    ∀ n {σ β : Type} {body : σ → Parser (Pass σ β)}, Repeats (grammar n) body →
      ∀ (s : State) state state' s', s.Ended →
        body state s = .ok (.again state') s' → s.Consumes s' := by
  refine ⟨fun file source n hn => ?_, fun n _ p hproduction s hs => ?_,
    fun n _ _ body hrepeats s state state' s' hs hrun => ?_⟩
  · have hends := endsOnce_tokenize source
    have hinitial : (State.initial file source (tokenize source)).Ended :=
      ended_initial hends
    have hle : (State.initial file source (tokenize source)).pending ≤
        (tokenize source).length := pending_initial_le hends
    refine ⟨hinitial, runs_program hinitial (Nat.le_trans ?_ hn)⟩
    unfold nestingBound
    omega
  · have hleads := hproduction.goes (serves_grammar n (s.pending + 1)) s hs
      (Nat.lt_succ_self _)
    refine ⟨fun hn hrun => ?_, fun s' hs' => ?_⟩
    · have hlt : n < 2 * (s.pending + 1) := hleads.of_exhausted hrun
      unfold nestingBound at hn
      omega
    · exact ⟨hleads.forward hs', hs.forward (hleads.forward hs')⟩
  · exact (hrepeats.loops (serves_grammar n (s.pending + 1)) state s hs
      (Nat.lt_succ_self _)).of_ok hrun

/-- Behind the brace of a struct declaration that is not closed. -/
def unclosedStruct : State :=
  { file := "", source := "struct S \x7b a"
    current := ⟨.ident, "a", 1, 12, 13⟩, next := ⟨.eof, "", 1, 13, 13⟩, rest := [] }

theorem ended_unclosedStruct : unclosedStruct.Ended :=
  ⟨by simp [State.tokens, unclosedStruct], by simp [State.tokens, unclosedStruct]⟩

/-- The text is read to its end, the declaration fails in front of it, and the name of
the field is consumed on the way. -/
theorem parsing_ends_unclosedStruct :
    (∃ p s, program (grammar (nestingBound (tokenize unclosedStruct.source).length))
        (State.initial "" unclosedStruct.source (tokenize unclosedStruct.source)) =
          .ok p s ∧ s.current.kind = .eof) ∧
      unclosedStruct.Ended ∧ nestingBound unclosedStruct.pending ≤ 4 ∧
      (structDeclaration unclosedStruct ≠ .exhausted ∧
        ∀ s' ∈ (structDeclaration unclosedStruct).state?, unclosedStruct.Forward s') ∧
      ∃ fields s', fieldPass [] unclosedStruct = .ok (.again fields) s' ∧
        unclosedStruct.Consumes s' := by
  obtain ⟨hprograms, hproductions, hloops⟩ := parsing_ends
  have hended := ended_unclosedStruct
  have hbound : nestingBound unclosedStruct.pending ≤ 4 := by decide
  obtain ⟨hrun, hforward⟩ := hproductions 4 .structDeclaration unclosedStruct hended
  exact ⟨(hprograms "" unclosedStruct.source _ (Nat.le_refl _)).2, hended, hbound,
    ⟨hrun hbound, fun s' hs' => (hforward s' hs').1⟩, _, _, rfl,
    hloops 4 .structFields unclosedStruct [] _ _ hended rfl⟩

end Script
