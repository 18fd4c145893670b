import Script.Proofs.Syntax.TakenDeclarations

/-!
# What expressions take

An operand takes the words from its first token to its last one, and an operator adds
those of what it has on its right.  A `switch` with several defaults loses all blocks but
the last one.
-/

namespace Script

namespace Parser

open State

variable {file : String} {all : List Token} {g : Grammar} {s s' first : State}
  {left : Expr} {ws : Multiset Word}

/-! ### Conditionals and loops -/

/-- The parentheses of a condition are no words. -/
theorem takes_condition (hg : g.Takes file all) (hs : s.Over file all) :
    Leads True g.condition s fun e s' => s.advanced.Takes file all s' e.words := by
  unfold Grammar.condition
  refine leads_expect_bind fun hopen => ?_
  have h := hs.takesNone.past hopen rfl
  refine (takes_operand hg h.top).bind fun e s1 _ h1 => ?_
  refine leads_expect_bind fun hclose => leads_pure ?_
  exact (h.only h1).past hclose rfl

/-- The `if` behind an `else` is a word of the branch that it starts. -/
theorem takes_alternative (hg : g.Takes file all) (hs : s.Over file all) :
    Leads True g.alternative s fun b s' => s.advanced.Takes file all s' b.words := by
  unfold Grammar.alternative
  refine leads_nextIs (fun hif => ?_) ?_
  · refine leads_advance_bind ?_
    refine (hg.branch hs.advanced (by rw [advanced_current, hif])).bind fun e s' _ h => ?_
    exact leads_pure (h.congr (add_zero _).symm)
  · exact takes_nextBlock hg hs

/-- The words of a branch are its own one and those inside. -/
theorem takes_branchHere (hg : g.Takes file all) (hs : s.Over file all)
    (hif : s.current.kind = .ifWord) :
    Leads True g.branchHere s fun e s' => s.Takes file all s' e.words := by
  unfold Grammar.branchHere
  rw [leads_here_bind]
  refine (takes_condition hg hs).bind fun condition s1 _ h1 => ?_
  refine (takes_nextBlock hg h1.top).bind fun consequence s2 _ h2 => ?_
  have h := ((hs.takesPlain hif rfl).only h1).add h2
  refine leads_nextIs (fun helse => ?_) ?_
  · have h' := h.past helse rfl
    refine leads_advance_bind ((takes_alternative hg h'.top).bind fun b s3 _ h3 => ?_)
    rw [leads_spanFrom_bind]
    exact leads_pure (h'.add h3)
  · rw [leads_spanFrom_bind]
    exact leads_pure (h.congr (add_zero _).symm)

theorem takes_whileHere (hg : g.Takes file all) (hs : s.Over file all)
    (hwhile : s.current.kind = .whileWord) :
    Leads True g.whileHere s fun e s' => s.Takes file all s' e.words := by
  unfold Grammar.whileHere
  rw [leads_here_bind]
  refine (takes_condition hg hs).bind fun condition s1 _ h1 => ?_
  refine (takes_nextBlock hg h1.top).bind fun body s2 _ h2 => ?_
  rw [leads_spanFrom_bind]
  exact leads_pure (((hs.takesPlain hwhile rfl).only h1).add h2)

theorem takes_expressionStatement (hg : g.Takes file all) (hs : s.Over file all) :
    Leads True g.expressionStatement s fun st s' => s.Takes file all s' st.words := by
  unfold Grammar.expressionStatement
  exact (hg.expression .lowest hs).bind fun e s' _ h => leads_pure h

/-- A declaration at the start of a header is no word of its own. -/
theorem takes_countingStart (hg : g.Takes file all) (hs : s.Over file all) :
    Leads True g.countingStart s fun st? s' =>
      s.Takes file all s' (wordsOfStmt? st?) := by
  have hsemicolon : ∀ st s1, s.Takes file all s1 st.words →
      Leads True (do expect .semicolon; return some st) s1 fun st? s' =>
        s.Takes file all s' (wordsOfStmt? st?) := by
    exact fun st s1 h => leads_expect_bind fun hnext => leads_pure (h.past hnext rfl)
  unfold Grammar.countingStart
  rw [leads_current_bind]
  split
  · next hkind => exact leads_pure (hs.takesPlain hkind rfl)
  · next hlet =>
    exact (takes_binding hg hs (Or.inl hlet) false).bind fun st s1 _ h => hsemicolon st s1 h
  · next hconst =>
    exact (takes_binding hg hs (Or.inr hconst) true).bind fun st s1 _ h => hsemicolon st s1 h
  · exact (takes_expressionStatement hg hs).bind fun st s1 _ h => hsemicolon st s1 h

theorem takes_operandUnless (hg : g.Takes file all) (hs : s.Over file all)
    (stop : Token.Kind) :
    Leads True (g.operandUnless stop) s fun e? s' =>
      s.advanced.Takes file all s' (wordsOfExpr? e?) := by
  unfold Grammar.operandUnless
  rw [leads_nextIs_bind]
  split
  · exact leads_pure hs.takesNone
  · exact (takes_operand hg hs).bind fun e s' _ h => leads_pure h

/-- The names of a header are words of it. -/
theorem takes_loopHeader (hg : g.Takes file all) (hs : s.Over file all) :
    Leads True g.loopHeader s fun header s' => s.Takes file all s' header.words := by
  unfold Grammar.loopHeader
  rw [leads_currentIs_bind, leads_nextKind_bind]
  split
  · next hitems =>
    rw [beq_iff_eq] at hitems
    rw [leads_nameHere_bind]
    have h := (hs.takesName (Or.inl hitems.1)).past hitems.2 rfl
    refine leads_advance_bind ((takes_operand hg h.top).bind fun e s1 _ h1 => ?_)
    exact leads_expect_bind fun hclose => leads_pure ((h.add h1).past hclose rfl)
  · split
    · next hpairs =>
      rw [beq_iff_eq] at hpairs
      rw [leads_nameHere_bind]
      refine leads_advance_bind (leads_expect_bind fun hident => ?_)
      rw [leads_nameHere_bind]
      have h := ((hs.takesName (Or.inl hpairs.1)).past hpairs.2 rfl).name (Or.inl hident)
      refine leads_expect_bind fun hin => ?_
      have h' := h.past hin rfl
      refine (takes_operand hg h'.top).bind fun e s1 _ h1 => ?_
      exact leads_expect_bind fun hclose => leads_pure ((h'.add h1).past hclose rfl)
    · refine (takes_countingStart hg hs).bind fun start s1 _ h1 => ?_
      refine (takes_operandUnless hg h1.top _).bind fun condition s2 _ h2 => ?_
      refine leads_expect_bind fun hsemicolon => ?_
      have h := (h1.add h2).past hsemicolon rfl
      refine (takes_operandUnless hg h.top _).bind fun update s3 _ h3 => ?_
      exact leads_expect_bind fun hclose => leads_pure ((h.add h3).past hclose rfl)

theorem takes_forHere (hg : g.Takes file all) (hs : s.Over file all)
    (hfor : s.current.kind = .forWord) :
    Leads True g.forHere s fun e s' => s.Takes file all s' e.words := by
  unfold Grammar.forHere
  rw [leads_here_bind]
  refine leads_expect_bind fun hopen => leads_advance_bind ?_
  have h := (hs.takesPlain hfor rfl).past hopen rfl
  refine (takes_loopHeader hg h.top.advanced).bind fun header s1 _ h1 => ?_
  refine (takes_nextBlock hg h1.top).bind fun body s2 _ h2 => ?_
  rw [leads_spanFrom_bind]
  exact leads_pure ((h.only h1).add h2)

/-! ### Switches -/

/-- A colon is no word. -/
theorem takes_skipColon (hs : s.Over file all) :
    Leads True Grammar.skipColon s fun _ s' => s.advanced.Takes file all s' 0 := by
  unfold Grammar.skipColon
  refine leads_nextIs (fun hcolon => ?_) ?_
  · exact leads_advance.mono fun _ s' _ heq => heq ▸ hs.takesNone.past hcolon rfl
  · exact leads_pure hs.takesNone

theorem takes_defaultHere (hg : g.Takes file all) (hs : s.Over file all)
    (hdefault : s.current.kind = .defaultWord) :
    Leads True g.defaultHere s fun b s' =>
      s.Takes file all s' ({.default} + b.words) := by
  have h := hs.takes
  rw [Token.words, hdefault] at h
  unfold Grammar.defaultHere
  refine (takes_skipColon hs).bind fun _ s1 _ h1 => ?_
  refine (takes_nextBlock hg h1.top).mono fun b s' _ h' => ?_
  exact ((h.add h1).add h').congr (congrArg (· + b.words) (add_zero _))

/-- The values and the body of a case have the words that are in them. -/
theorem takes_caseHere (hg : g.Takes file all) (hs : s.Over file all)
    (hcase : s.current.kind = .caseWord) :
    Leads True g.caseHere s fun c s' => s.Takes file all s' c.words := by
  have hvalues : Leads True (inCaseValues (commaList g.operand)) s fun values s' =>
      s.advanced.Takes file all s' (values.map Expr.words).sum := by
    have hmode : ({ s with inCase := true } : State).Over file all := hs.congr rfl rfl
    exact leads_inCaseValues (takes_commaList (takes_operand hg) hmode)
      fun values s' h => h.inCase
  unfold Grammar.caseHere
  rw [leads_here_bind]
  refine hvalues.bind fun values s1 _ h1 => ?_
  refine (takes_skipColon h1.top).bind fun _ s2 _ h2 => ?_
  refine (takes_nextBlock hg h2.top).bind fun body s3 _ h3 => ?_
  rw [leads_spanFrom_bind]
  have h := (hs.takesPlain hcase rfl).only h1
  refine leads_pure (((h.add h2).add h3).congr ?_)
  rw [add_zero, Case.words, wordsOfExprs_eq_sum]

/-- What has been read of a `switch`, with the cases last one first. -/
def wordsOfRead (read : List Case × Option Block) : Multiset Word :=
  (read.1.map Case.words).sum + wordsOfDefault read.2

/-- The cases and the default, up to the closing brace.  A default in front of another
one gets lost. -/
theorem reads_cases (hg : g.Takes file all) (h : first.Reads file all s ws) :
    Leads True (repeated g.casePass ([], none)) s fun read s' =>
      first.Reads file all s' (ws + wordsOfRead read) ∧ s'.current.kind = .rbrace := by
  refine leads_repeated_of
    (I := fun read s' => first.Reads file all s' (ws + wordsOfRead read))
    (fun read s' h => ?_) (h.congr (add_zero _).symm)
  obtain ⟨cases, default⟩ := read
  unfold Grammar.casePass
  rw [leads_current_bind]
  split
  · next hclose =>
    refine leads_pure ⟨h.congr ?_, hclose⟩
    rw [wordsOfRead, wordsOfRead, sum_map_reverse]
  · next hcase =>
    refine (takes_caseHere hg h.top hcase).bind fun c s'' _ h' => leads_advance_bind ?_
    refine leads_pure ((h.add h').reads.congr ?_)
    rw [wordsOfRead, wordsOfRead, List.map_cons, List.sum_cons]
    abel
  · next hdefault =>
    refine (takes_defaultHere hg h.top hdefault).bind fun b s'' _ h' => ?_
    refine leads_advance_bind (leads_pure ?_)
    cases default with
    | none =>
      refine (h.add h').reads.congr ?_
      rw [wordsOfRead, wordsOfRead, wordsOfDefault, wordsOfDefault]
      abel
    | some lost =>
      -- The default that was read before goes out of the result.
      have hboth : ws + wordsOfRead (cases, some lost) + ({.default} + b.words) =
          ws + wordsOfRead (cases, some b) + ({.default} + lost.words) := by
        rw [wordsOfRead, wordsOfRead, wordsOfDefault, wordsOfDefault]
        abel
      have hleft : Word.default ∈ ws + wordsOfRead (cases, some b) := by
        simp [wordsOfRead, wordsOfDefault]
      exact ((h.add h').reads.congr hboth).lose hleft
  · exact leads_unexpected
  · exact leads_unexpected

/-- All words are taken unless a default was read before another one. -/
theorem takes_switchHere (hg : g.Takes file all) (hs : s.Over file all)
    (hswitch : s.current.kind = .switchWord) :
    Leads True g.switchHere s fun e s' => s.Takes file all s' e.words := by
  rw [Grammar.switchHere_eq, leads_here_bind]
  refine (takes_condition hg hs).bind fun subject s1 _ h1 => ?_
  have h := (hs.takesPlain hswitch rfl).only h1
  refine leads_expect_bind fun hopen => leads_advance_bind ?_
  refine (reads_cases hg (h.past hopen rfl).reads).bind fun read s2 _ ⟨h2, hclose⟩ => ?_
  obtain ⟨cases, default⟩ := read
  rw [leads_spanFrom_bind]
  refine leads_pure ((h2.takesPlain hclose rfl).congr ?_)
  rw [wordsOfRead, Expr.words, wordsOfCases_eq_sum, add_assoc]

/-! ### Records, maps and arrays -/

theorem takes_field (hg : g.Takes file all) (hs : s.Over file all) :
    Leads True g.field s fun f s' => s.advanced.Takes file all s' f.words := by
  unfold Grammar.field
  refine leads_expect_bind fun hident => ?_
  rw [leads_nameHere_bind]
  refine leads_expect_bind fun hcolon => ?_
  have h := (hs.takesNone.onlyName (Or.inl hident)).past hcolon rfl
  exact (takes_operand hg h.top).bind fun value s' _ h' => leads_pure (h.add h')

theorem takes_entry (hg : g.Takes file all) (hs : s.Over file all) :
    Leads True g.entry s fun e s' => s.advanced.Takes file all s' e.words := by
  unfold Grammar.entry
  refine (takes_operand hg hs).bind fun key s1 _ h1 => leads_expect_bind fun hcolon => ?_
  have h := h1.past hcolon rfl
  exact (takes_operand hg h.top).bind fun value s2 _ h2 => leads_pure (h.add h2)

/-- The name is a word of the record or of the expression alone. -/
theorem takes_nameOrRecord (hg : g.Takes file all) (hs : s.Over file all)
    (hident : s.current.kind = .ident) :
    Leads True g.nameOrRecord s fun e s' => s.Takes file all s' e.words := by
  have h := hs.takesName (Or.inl hident)
  unfold Grammar.nameOrRecord
  rw [leads_nameHere_bind, leads_nextIs_bind, leads_insideCase_bind]
  split
  · exact leads_pure h
  · next hopen =>
    have hbrace : s.next.kind = .lbrace := by
      by_contra hne
      simp [hne] at hopen
    refine leads_advance_bind ?_
    have h' := h.past hbrace rfl
    refine (takes_braceList (takes_field hg) h'.top).bind fun fields s' _ hfields => ?_
    rw [leads_spanFrom_bind]
    refine leads_pure ((h'.add hfields).congr ?_)
    rw [Expr.words, wordsOfFields_eq_sum]
    rfl

theorem takes_mapHere (hg : g.Takes file all) (hs : s.Over file all)
    (hopen : s.current.kind = .lbrace) :
    Leads True g.mapHere s fun e s' => s.Takes file all s' e.words := by
  unfold Grammar.mapHere
  rw [leads_here_bind]
  refine (takes_braceList (takes_entry hg) hs).bind fun entries s' _ h => ?_
  rw [leads_spanFrom_bind]
  refine leads_pure (((hs.takesPlain hopen rfl).only h).congr ?_)
  rw [Expr.words, wordsOfEntries_eq_sum]

/-- The items are collected in reverse, which does not matter to a multiset. -/
theorem takes_expressionList (hg : g.Takes file all) (hs : s.Over file all)
    {close : Token.Kind} (hclose : close.isWord = false) :
    Leads True (g.expressionList close) s fun items s' =>
      s.advanced.Takes file all s' (wordsOfExprs items) := by
  have hpass : ∀ items s', s.advanced.Takes file all s' (items.map Expr.words).sum →
      Leads True (g.itemPass close items) s' (Pass.Keeps
        (fun items s' => s.advanced.Takes file all s' (items.map Expr.words).sum)
        fun items s' => s.advanced.Takes file all s' (items.map Expr.words).sum) := by
    intro items s' h
    have hdone := h.congr (sum_map_reverse Expr.words items).symm
    unfold Grammar.itemPass
    refine leads_takeComma_bind (fun hcomma => ?_) (leads_pure hdone)
    rw [if_pos rfl, leads_nextIs_bind]
    split
    · exact leads_pure (hdone.past hcomma rfl)
    · have h' := h.past hcomma rfl
      refine (takes_operand hg h'.top).bind fun e s'' _ he => ?_
      refine leads_pure ((h'.add he).congr ?_)
      rw [List.map_cons, List.sum_cons, add_comm]
  rw [Grammar.expressionList_eq]
  refine leads_nextIs (fun hnext => ?_) ?_
  · exact leads_advance_bind (leads_pure (hs.takesNone.past hnext hclose))
  · refine (takes_operand hg hs).bind fun e s1 _ h1 => ?_
    refine (leads_repeated_of hpass (h1.congr (by simp))).bind fun items s2 _ h2 => ?_
    refine leads_expect_bind fun hnext => leads_pure ((h2.past hnext hclose).congr ?_)
    exact (wordsOfExprs_eq_sum items).symm

theorem takes_arrayHere (hg : g.Takes file all) (hs : s.Over file all)
    (hopen : s.current.kind = .lbracket) :
    Leads True g.arrayHere s fun e s' => s.Takes file all s' e.words := by
  unfold Grammar.arrayHere
  rw [leads_here_bind]
  refine (takes_expressionList hg hs (by rfl)).bind fun elements s' _ h => ?_
  rw [leads_spanFrom_bind]
  exact leads_pure ((hs.takesPlain hopen rfl).only h)

/-! ### Operators in front -/

/-- An operator in front is no word. -/
theorem takes_unaryHere (hg : g.Takes file all) (hs : s.Over file all)
    (hkind : s.current.kind.isWord = false) :
    Leads True g.unaryHere s fun e s' => s.Takes file all s' e.words := by
  unfold Grammar.unaryHere
  rw [leads_here_bind, leads_current_bind]
  refine leads_advance_bind ((hg.expression .unary hs.advanced).bind fun right s' _ h => ?_)
  exact leads_pure ((hs.takesPlain rfl hkind).only h)

theorem takes_spreadHere (hg : g.Takes file all) (hs : s.Over file all)
    (hspread : s.current.kind = .spread) :
    Leads True g.spreadHere s fun e s' => s.Takes file all s' e.words := by
  unfold Grammar.spreadHere
  rw [leads_here_bind]
  refine leads_advance_bind ((hg.expression .unary hs.advanced).bind fun value s' _ h => ?_)
  exact leads_pure ((hs.takesPlain hspread rfl).only h)

/-! ### Groups and functions -/

/-- An arrow function whose parameters have been taken in front of the arrow. -/
theorem takes_arrowBody (hg : g.Takes file all) {params : List Name}
    (h : first.Takes file all s (params.map Name.words).sum) (start : Location) :
    Leads True (g.arrowBody params start) s fun e s' => first.Takes file all s' e.words := by
  unfold Grammar.arrowBody
  exact (takes_operand hg h.top).bind fun body s' _ h' => leads_pure (h.add h')

/-- The names behind commas. -/
theorem takes_names (h : first.Takes file all s ws) :
    Leads True (repeated Grammar.namePass []) s fun names s' =>
      first.Takes file all s' (ws + (names.map Name.words).sum) := by
  refine leads_repeated_of
    (I := fun names s' => first.Takes file all s' (ws + (names.map Name.words).sum))
    (fun names s' h => ?_) (h.congr (add_zero _).symm)
  unfold Grammar.namePass
  refine leads_takeComma_bind (fun hcomma => ?_) (leads_pure (h.congr ?_))
  · refine leads_expect_bind fun hident => ?_
    rw [leads_nameHere_bind]
    refine leads_pure (((h.past hcomma rfl).name (Or.inl hident)).congr ?_)
    rw [List.map_cons, List.sum_cons, Name.words]
    abel
  · rw [sum_map_reverse]

/-- The parentheses of a group are no words, the parameters of a function are. -/
theorem takes_groupHere (hg : g.Takes file all) (hs : s.Over file all)
    (hopen : s.current.kind = .lparen) :
    Leads True g.groupHere s fun e s' => s.Takes file all s' e.words := by
  have h := hs.takesPlain hopen rfl
  rw [Grammar.groupHere_eq, leads_here_bind]
  refine leads_nextIs (fun hclose => ?_) ?_
  · refine leads_advance_bind (leads_expect_bind fun harrow => ?_)
    exact takes_arrowBody hg ((h.past hclose rfl).past harrow rfl) _
  · refine leads_advance_bind ?_
    rw [leads_currentIs_bind, leads_nextKind_bind]
    have hname (hident : s.advanced.current.kind = .ident) :
        s.Takes file all s.advanced {.name s.advanced.current.text} := by
      rw [advanced_current] at hident
      exact h.onlyName (Or.inl hident)
    split
    · next hnames =>
      rw [beq_iff_eq] at hnames
      rw [leads_nameHere_bind]
      refine (takes_names (hname hnames.1)).bind fun names s' _ h' => ?_
      refine leads_expect_bind fun hclose => leads_expect_bind fun harrow => ?_
      exact takes_arrowBody hg ((h'.past hclose rfl).past harrow rfl) _
    · split
      · next hsingle =>
        rw [beq_iff_eq] at hsingle
        have hparam := (hname hsingle.1).past hsingle.2 rfl
        rw [leads_nameHere_bind]
        refine leads_advance_bind ?_
        refine leads_nextIs (fun harrow => ?_) ?_
        · refine leads_advance_bind (takes_arrowBody hg ?_ _)
          exact (hparam.past harrow rfl).congr (add_zero _).symm
        · exact leads_pure hparam
      · refine (hg.expression .lowest hs.advanced).bind fun inner s' _ h' => ?_
        refine leads_expect_bind fun hclose => leads_pure ?_
        exact (h.only h').past hclose rfl

/-- The name of a function expression is taken whatever token it is. -/
theorem takes_functionHere (hg : g.Takes file all) (hs : s.Over file all)
    (hdefine : s.current.kind = .defineWord) :
    Leads True g.functionHere s fun e s' => s.Takes file all s' e.words := by
  have h := hs.takesPlain hdefine rfl
  have hname : Leads True (do
      if ← nextIs .ident then
        advance
        return some (← current).text
      else
        return none) s fun name s' => s.Takes file all s' (wordsOfName? name) := by
    refine leads_nextIs (fun hident => ?_) ?_
    · refine leads_advance_bind ?_
      rw [leads_current_bind]
      exact leads_pure (h.onlyName (Or.inl hident))
    · exact leads_pure h
  unfold Grammar.functionHere
  rw [leads_here_bind]
  refine hname.bind fun name s1 _ h1 => leads_expect_bind fun hopen => ?_
  have h' := h1.past hopen rfl
  refine (takes_functionRest hg h'.top _ _).bind fun f s2 _ ⟨ws, hrest, hwords, _⟩ => ?_
  exact leads_pure ((h'.add hrest).congr hwords.symm)

/-! ### Operands -/

/-- One case for each kind of token that an operand starts with. -/
theorem takes_operandHere (hall : ∀ t ∈ all, t.Proper) (hg : g.Takes file all)
    (hs : s.Over file all) :
    Leads True g.operandHere s fun e s' => s.Takes file all s' e.words := by
  have hliteral : s.Takes file all s s.current.words := hs.takes
  rw [Token.words] at hliteral
  unfold Grammar.operandHere
  rw [leads_current_bind, leads_here_bind]
  split
  · next hident => exact takes_nameOrRecord hg hs hident
  · next hint =>
    refine (takes_integerHere hall hs hint).bind ?_
    rintro n _ _ ⟨rfl, _, h⟩
    exact leads_pure h
  · next hfloat =>
    rw [hfloat] at hliteral
    unfold floatHere
    rw [leads_current_bind, leads_here_bind]
    split
    · exact leads_pure hliteral
    · exact leads_fail
  · next hstr =>
    rw [hstr] at hliteral
    exact leads_pure hliteral
  · next htrue =>
    rw [htrue] at hliteral
    exact leads_pure hliteral
  · next hfalse =>
    rw [hfalse] at hliteral
    exact leads_pure hliteral
  iterate 4
    · next hkind => exact takes_unaryHere hg hs (by rw [hkind]; rfl)
  · next hopen => exact takes_groupHere hg hs hopen
  · next hopen => exact takes_arrayHere hg hs hopen
  · next hopen => exact takes_mapHere hg hs hopen
  · next hif => exact takes_branchHere hg hs hif
  · next hwhile => exact takes_whileHere hg hs hwhile
  · next hfor => exact takes_forHere hg hs hfor
  · next hswitch => exact takes_switchHere hg hs hswitch
  · next htry => exact (takes_attempt hg hs htry).bind fun t s' _ h => leads_pure h
  · next hdefine => exact takes_functionHere hg hs hdefine
  · next hspread => exact takes_spreadHere hg hs hspread
  · exact leads_fail
  · exact leads_fail
  · split
    · next htype =>
      rw [leads_nameHere_bind]
      exact leads_pure (hs.takesName (Or.inr htype))
    · exact leads_fail

/-! ### Operators behind an operand -/

section

variable (hg : g.Takes file all) (h : first.Takes file all s left.words)

include hg h

/-- The words of the left side have been taken before. -/
theorem takes_binaryHere (op : BinaryOp) :
    Leads True (g.binaryHere left op) s fun e s' => first.Takes file all s' e.words := by
  unfold Grammar.binaryHere
  rw [leads_current_bind]
  refine leads_advance_bind ((hg.expression _ h.top.advanced).bind fun right s' _ h' => ?_)
  exact leads_pure (h.add h')

theorem takes_assignHere (op : AssignOp) :
    Leads True (g.assignHere left op) s fun e s' => first.Takes file all s' e.words := by
  unfold Grammar.assignHere
  exact (takes_operand hg h.top).bind fun value s' _ h' => leads_pure (h.add h')

theorem takes_rangeHere :
    Leads True (g.rangeHere left) s fun e s' => first.Takes file all s' e.words := by
  unfold Grammar.rangeHere
  refine leads_advance_bind ((hg.expression _ h.top.advanced).bind fun stop s' _ h' => ?_)
  exact leads_pure (h.add h')

theorem takes_ternaryHere :
    Leads True (g.ternaryHere left) s fun e s' => first.Takes file all s' e.words := by
  unfold Grammar.ternaryHere
  refine (takes_operand hg h.top).bind fun consequence s1 _ h1 => ?_
  refine leads_expect_bind fun hcolon => ?_
  have h' := (h.add h1).past hcolon rfl
  exact (takes_operand hg h'.top).bind fun alternative s2 _ h2 => leads_pure (h'.add h2)

/-- The operand in front of the arrow becomes the parameter. -/
theorem takes_arrowHere :
    Leads True (g.arrowHere left) s fun e s' => first.Takes file all s' e.words := by
  unfold Grammar.arrowHere
  split
  · exact takes_arrowBody hg (h.congr (add_zero _).symm) _
  · exact leads_fail

theorem takes_callHere :
    Leads True (g.callHere left) s fun e s' => first.Takes file all s' e.words := by
  unfold Grammar.callHere
  refine (takes_expressionList hg h.top (by rfl)).bind fun args s' _ h' => ?_
  rw [leads_spanFrom_bind]
  exact leads_pure (h.add h')

omit h in
theorem takes_sliceStop (hs : s.Over file all) :
    Leads True g.sliceStop s fun stop? s' =>
      s.advanced.Takes file all s' (wordsOfExpr? stop?) := by
  unfold Grammar.sliceStop
  refine (takes_operandUnless hg hs _).bind fun stop? s' _ h => ?_
  exact leads_expect_bind fun hclose => leads_pure (h.past hclose rfl)

/-- Colons and brackets are no words. -/
theorem takes_indexHere :
    Leads True (g.indexHere left) s fun e s' => first.Takes file all s' e.words := by
  have hslice : ∀ (start? : Option Expr) {s' : State},
      first.Takes file all s' (left.words + wordsOfExpr? start?) → s'.next.kind = .colon →
      Leads True (do
        advance
        let stop ← g.sliceStop
        return .slice left start? stop (← spanFrom left.loc)) s' fun (e : Expr) s' =>
          first.Takes file all s' e.words := by
    intro start? s' h' hcolon
    have hstart := h'.past hcolon rfl
    refine leads_advance_bind ((takes_sliceStop hg hstart.top).bind fun stop? s'' _ h'' => ?_)
    rw [leads_spanFrom_bind]
    exact leads_pure (hstart.add h'')
  unfold Grammar.indexHere
  refine leads_nextIs (hslice none (h.congr (add_zero _).symm)) ?_
  refine (takes_operand hg h.top).bind fun index s1 _ h1 => ?_
  refine leads_nextIs (hslice (some index) (h.add h1)) (leads_expect_bind fun hclose => ?_)
  rw [leads_spanFrom_bind]
  exact leads_pure ((h.add h1).past hclose rfl)

omit hg in
/-- The name behind the dot is a word of the member. -/
theorem takes_memberHere :
    Leads True (Grammar.memberHere left) s fun e s' => first.Takes file all s' e.words := by
  unfold Grammar.memberHere
  rw [leads_nextKind_bind]
  split
  · next hname =>
    refine leads_advance_bind ?_
    rw [leads_nameHere_bind]
    exact leads_pure (h.name hname)
  · exact leads_failAtNext

omit hg in
theorem takes_stepHere (op : StepOp) :
    Leads True (Grammar.stepHere left op) s fun e s' => first.Takes file all s' e.words := by
  unfold Grammar.stepHere
  rw [leads_spanFrom_bind]
  exact leads_pure h

/-- One case for each operator. -/
theorem takes_operatorHere :
    Leads True (g.operatorHere left) s fun e s' => first.Takes file all s' e.words := by
  unfold Grammar.operatorHere
  rw [leads_current_bind]
  dsimp only
  split
  · exact takes_binaryHere hg h _
  · exact takes_assignHere hg h _
  · exact takes_rangeHere hg h
  · exact takes_ternaryHere hg h
  · exact takes_arrowHere hg h
  · exact takes_callHere hg h
  · exact takes_indexHere hg h
  · exact takes_memberHere h
  · exact takes_stepHere h _
  · exact takes_stepHere h _
  · exact leads_pure h

end

/-- A token that binds an operand in front of it is no word. -/
theorem isWord_of_binds {kind : Token.Kind} {precedence : Precedence}
    (h : precedence.level < (Precedence.ofKind kind).level) : kind.isWord = false := by
  cases kind <;> first | rfl | exact absurd h (Nat.not_lt_zero _)

/-- The passes preserve that all words so far are in the tree. -/
theorem takes_expressionHere (hall : ∀ t ∈ all, t.Proper) (hg : g.Takes file all)
    (hs : s.Over file all) (precedence : Precedence) :
    Leads True (g.expressionHere precedence) s fun e s' => s.Takes file all s' e.words := by
  rw [Grammar.expressionHere_eq]
  refine (takes_operandHere hall hg hs).bind fun operand s1 _ h1 => ?_
  refine leads_repeated_of (I := fun e s' => s.Takes file all s' e.words)
    (fun left s' h => ?_) h1
  unfold Grammar.operatorPass
  rw [leads_nextKind_bind]
  split
  · next hbinds =>
    have h' := h.past rfl (isWord_of_binds hbinds.2)
    refine leads_advance_bind ((takes_operatorHere hg h').bind fun e s'' _ he => ?_)
    exact leads_pure he
  · exact leads_pure h

end Parser

end Script
