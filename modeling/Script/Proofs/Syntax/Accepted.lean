import Script.Proofs.Syntax.AcceptedDeclarations

/-!
# What accepted programs look like

Whatever the source is, the program that the parser makes of it is well formed.
Each production makes a well-formed node of well-formed nodes, and the bound on
the nesting of productions is where the induction is.
-/

namespace Script

namespace Parser

open Node (Formed expr stmt formed_expr formed_stmt)

namespace Grammar

variable {g : Grammar}

/-! ### Conditionals and loops -/

/-- The parentheses around a condition leave no trace in the tree. -/
theorem Sound.condition (hg : g.Sound) :
    Parser.Sound g.condition fun e => (expr e).Formed := by
  intro s hs
  unfold Grammar.condition
  refine yields_expect_bind hs fun hs' _ => ?_
  refine Yields.bind (hg.operand _ hs') fun e s' hs' he => ?_
  exact yields_expect_bind hs' fun hs'' _ => yields_pure hs'' he

/-- Behind `else if` the inner branch is the one statement of a block that was not
written. -/
theorem formed_blockOf {e : Expr} (he : (expr e).Formed) :
    (Node.block (blockOf e)).Formed := by
  refine Node.formed_block fun st hst => ?_
  rw [List.mem_singleton.mp hst]
  exact formed_stmt [expr e] (fun _ => rfl) rfl (by simpa using he)

/-- Either way the alternative is a block. -/
theorem Sound.alternative (hg : g.Sound) :
    Parser.Sound g.alternative fun b => (Node.block b).Formed := by
  intro s hs
  unfold Grammar.alternative
  rw [yields_nextIs_bind]
  split
  · refine yields_advance_bind hs fun hs' => ?_
    refine Yields.bind (hg.branch _ hs') fun e s' hs' he => ?_
    exact yields_pure hs' (formed_blockOf he)
  · exact hg.nextBlock s hs

/-- Whether there is an `else` changes the parts, and no more. -/
theorem Sound.branchHere (hg : g.Sound) :
    Parser.Sound g.branchHere fun e => (expr e).Formed := by
  intro s hs
  unfold Grammar.branchHere
  rw [yields_here_bind]
  refine Yields.bind (hg.condition s hs) fun c s' hs' hc => ?_
  refine Yields.bind (hg.nextBlock s' hs') fun b s' hs' hb => ?_
  rw [yields_nextIs_bind]
  split
  · refine yields_advance_bind hs' fun hs'' => ?_
    refine Yields.bind (hg.alternative _ hs'') fun b' s' hs' hb' => ?_
    rw [yields_spanFrom_bind]
    refine yields_pure hs' (formed_expr [expr c, Node.block b, Node.block b']
      (fun _ => rfl) rfl ?_)
    simp [hc, hb, hb']
  · rw [yields_spanFrom_bind]
    refine yields_pure hs' (formed_expr [expr c, Node.block b]
      (fun _ => rfl) rfl ?_)
    simp [hc, hb]

theorem Sound.whileHere (hg : g.Sound) :
    Parser.Sound g.whileHere fun e => (expr e).Formed := by
  intro s hs
  unfold Grammar.whileHere
  rw [yields_here_bind]
  refine Yields.bind (hg.condition s hs) fun c s' hs' hc => ?_
  refine Yields.bind (hg.nextBlock s' hs') fun b s' hs' hb => ?_
  rw [yields_spanFrom_bind]
  refine yields_pure hs' (formed_expr [expr c, Node.block b] (fun _ => rfl) rfl ?_)
  simp [hc, hb]

/-- That it is an expression statement is part of what is said, since the header of a
loop admits no other kind. -/
theorem Sound.expressionStatement (hg : g.Sound) :
    Parser.Sound g.expressionStatement fun st =>
      ∃ e loc, st = .expr e loc ∧ (expr e).Formed := by
  intro s hs
  unfold Grammar.expressionStatement
  refine Yields.bind (hg.expression .lowest s hs) fun e s' hs' he => ?_
  exact yields_pure hs' ⟨e, _, rfl, he⟩

/-- The header of a loop, with what stands inside. -/
def HeaderFormed (h : LoopHeader) : Prop :=
  Node.headerIsWellFormed h = true ∧ ∀ n ∈ Node.ofHeader h, n.Formed

/-- The start of a counting header: nothing, a variable or an expression. -/
def StartFormed (start : Option Stmt) : Prop :=
  HeaderFormed (.counting start none none)

/-- A variable at the start of a header has been read as a declaration. -/
theorem Sound.countingStart (hg : g.Sound) :
    Parser.Sound g.countingStart StartFormed := by
  have hbinding : ∀ (constant : Bool) (s : State), s.Proper →
      Yields (do
        let s ← g.binding constant
        expect .semicolon
        return some s) s fun start _ => StartFormed start := by
    intro constant s hs
    refine Yields.bind (hg.binding constant s hs) fun st s' hs' hst => ?_
    refine yields_expect_bind hs' fun hs'' _ => yields_pure hs'' ?_
    obtain ⟨name, type, value, loc, rfl, hname, htype, hvalue⟩ := hst
    refine ⟨Bool.and_eq_true_iff.mpr ⟨hname, htype⟩, ?_⟩
    simpa [Node.ofHeader] using hvalue
  intro s hs
  unfold Grammar.countingStart
  rw [yields_current_bind]
  split
  · exact yields_pure hs ⟨rfl, by simp [Node.ofHeader]⟩
  · exact hbinding false s hs
  · exact hbinding true s hs
  · refine Yields.bind (hg.expressionStatement s hs) fun st s' hs' hst => ?_
    refine yields_expect_bind hs' fun hs'' _ => yields_pure hs'' ?_
    obtain ⟨e, loc, rfl, he⟩ := hst
    exact ⟨rfl, by simpa [Node.ofHeader] using he⟩

/-- What is left out has nothing to show. -/
theorem Sound.operandUnless (hg : g.Sound) (stop : Token.Kind) :
    Parser.Sound (g.operandUnless stop) fun e? =>
      ∀ e ∈ e?, (expr e).Formed := by
  intro s hs
  unfold Grammar.operandUnless
  rw [yields_nextIs_bind]
  split
  · exact yields_pure hs (by simp)
  · refine Yields.bind (hg.operand s hs) fun e s' hs' he => ?_
    exact yields_pure hs' (by simpa using he)

/-- A counting header is made of its start and of what follows it. -/
theorem StartFormed.counting {start : Option Stmt} {condition update : Option Expr}
    (hstart : StartFormed start) (hcondition : ∀ e ∈ condition, (expr e).Formed)
    (hupdate : ∀ e ∈ update, (expr e).Formed) :
    HeaderFormed (.counting start condition update) := by
  have hopt : ∀ e? : Option Expr, (∀ e ∈ e?, (expr e).Formed) →
      ∀ n ∈ e?.toList.map expr, n.Formed := by
    intro e? he? n hn
    obtain ⟨e, he, rfl⟩ := List.mem_map.mp hn
    exact he? e (Option.mem_toList.mp he)
  obtain ⟨hhere, hinside⟩ := hstart
  refine ⟨?_, fun n hn => ?_⟩
  · rw [← hhere]
    unfold Node.headerIsWellFormed
    split <;> simp_all
  · unfold Node.ofHeader at hn
    rcases List.mem_append.mp hn with hbefore | hn
    · rcases List.mem_append.mp hbefore with hn | hn
      · refine hinside n ?_
        unfold Node.ofHeader
        exact List.mem_append_left _ (List.mem_append_left _ hn)
      · exact hopt condition hcondition n hn
    · exact hopt update hupdate n hn

/-- The token that tells the loops apart also shows that a name stands in front of it.
-/
theorem Sound.loopHeader (hg : g.Sound) :
    Parser.Sound g.loopHeader HeaderFormed := by
  intro s hs
  unfold Grammar.loopHeader
  rw [yields_currentIs_bind, yields_nextKind_bind]
  split
  · next hkind =>
    have hitem : s.current.kind = .ident := by simpa using hkind.1
    rw [yields_nameHere_bind]
    refine yields_advance_bind hs fun hs' => ?_
    refine Yields.bind (hg.operand _ hs') fun e s' hs' he => ?_
    refine yields_expect_bind hs' fun hs'' _ => yields_pure hs'' ?_
    exact ⟨hs.nameHere hitem, by simpa [Node.ofHeader] using he⟩
  · split
    · next hkind =>
      have hindex : s.current.kind = .ident := by simpa using hkind.1
      rw [yields_nameHere_bind]
      refine yields_advance_bind hs fun hs' => ?_
      refine yields_expect_bind hs' fun hvalue hvkind => ?_
      rw [yields_nameHere_bind]
      refine yields_expect_bind hvalue fun hs'' _ => ?_
      refine Yields.bind (hg.operand _ hs'') fun e s' hs' he => ?_
      refine yields_expect_bind hs' fun hs'' _ => yields_pure hs'' ?_
      refine ⟨Bool.and_eq_true_iff.mpr
        ⟨hs.nameHere hindex, hvalue.nameHere hvkind⟩, ?_⟩
      simpa [Node.ofHeader] using he
    · refine Yields.bind (hg.countingStart s hs) fun st s' hs' hst => ?_
      refine Yields.bind (hg.operandUnless _ s' hs') fun c s' hs' hc => ?_
      refine yields_expect_bind hs' fun hs'' _ => ?_
      refine Yields.bind (hg.operandUnless _ _ hs'') fun u s' hs' hu => ?_
      refine yields_expect_bind hs' fun hs'' _ => yields_pure hs'' ?_
      exact hst.counting hc hu

theorem Sound.forHere (hg : g.Sound) :
    Parser.Sound g.forHere fun e => (expr e).Formed := by
  intro s hs
  unfold Grammar.forHere
  rw [yields_here_bind]
  refine yields_expect_bind hs fun hs' _ => ?_
  refine yields_advance_bind hs' fun hs'' => ?_
  refine Yields.bind (hg.loopHeader _ hs'') fun header s' hs' hheader => ?_
  refine Yields.bind (hg.nextBlock s' hs') fun body s' hs' hbody => ?_
  rw [yields_spanFrom_bind]
  refine yields_pure hs' (formed_expr (Node.ofHeader header ++ [Node.block body])
    (fun _ => rfl) hheader.1 fun n hn => ?_)
  rcases List.mem_append.mp hn with hn | hn
  · exact hheader.2 n hn
  · rw [List.mem_singleton.mp hn]
    exact hbody

/-! ### `switch` -/

/-- A case has one value at least, and all of its parts are well formed. -/
def CaseFormed (c : Case) : Prop :=
  c.values ≠ [] ∧ (∀ e ∈ c.values, (expr e).Formed) ∧ (Node.block c.body).Formed

/-- A colon behind the values of a case may be left out. -/
theorem yields_skipColon {s : State} (hs : s.Proper) :
    Yields skipColon s fun _ _ => True := by
  unfold skipColon
  rw [yields_nextIs_bind]
  split
  · exact Outcome.After.mono (yields_advance hs) fun _ _ _ => trivial
  · exact yields_pure hs trivial

/-- The list of values has an item whenever it is read without fail. -/
theorem Sound.caseHere (hg : g.Sound) : Parser.Sound g.caseHere CaseFormed := by
  intro s hs
  unfold Grammar.caseHere
  rw [yields_here_bind]
  refine Yields.bind ((sound_commaList hg.operand).inCaseValues s hs)
    fun values s' hs' hvalues => ?_
  refine Yields.bind (yields_skipColon hs') fun _ s' hs' _ => ?_
  refine Yields.bind (hg.nextBlock s' hs') fun body s' hs' hbody => ?_
  rw [yields_spanFrom_bind]
  exact yields_pure hs' ⟨hvalues.1, hvalues.2, hbody⟩

theorem Sound.defaultHere (hg : g.Sound) :
    Parser.Sound g.defaultHere fun b => (Node.block b).Formed := by
  intro s hs
  unfold Grammar.defaultHere
  refine Yields.bind (yields_skipColon hs) fun _ s' hs' _ => ?_
  exact hg.nextBlock s' hs'

/-- A switch is well formed by its cases, its subject and its default, in whatever order
they came. -/
theorem formed_switch {subject : Expr} {cases : List Case}
    {default : Option Block} {loc : Location} (hsubject : (expr subject).Formed)
    (hcases : ∀ c ∈ cases, CaseFormed c)
    (hdefault : ∀ b ∈ default, (Node.block b).Formed) :
    (expr (.switch subject cases default loc)).Formed := by
  refine Node.formed_of (fun _ => ?_) fun b b' n hn => ?_
  · change cases.all (!·.values.isEmpty) = true
    rw [List.all_eq_true]
    intro c hc
    simpa using (hcases c hc).1
  · change (b', n) ∈ (b, expr subject) :: Node.ofCases cases ++ _ at hn
    rcases List.mem_append.mp hn with hn | hn
    · rcases List.mem_cons.mp hn with heq | hn
      · rw [(Prod.mk.inj heq).2]
        exact hsubject
      · obtain ⟨c, hc, hn⟩ := List.mem_flatMap.mp hn
        obtain ⟨-, hvalues, hbody⟩ := hcases c hc
        rcases List.mem_append.mp hn with hn | hn
        · obtain ⟨e, he, rfl⟩ := List.mem_map.mp (Node.mem_of_inTurn hn)
          exact hvalues e he
        · rw [(Prod.mk.inj (List.mem_singleton.mp hn)).2]
          exact hbody
    · obtain ⟨body, hbody, heq⟩ := List.mem_map.mp hn
      rw [← (Prod.mk.inj heq).2]
      exact hdefault body (Option.mem_toList.mp hbody)

/-- What the loop over the cases preserves is that all read so far are well formed, the
default included.  A later default takes the place of an earlier one. -/
theorem Sound.switchHere (hg : g.Sound) :
    Parser.Sound g.switchHere fun e => (expr e).Formed := by
  intro s hs
  unfold Grammar.switchHere
  rw [yields_here_bind]
  refine Yields.bind (hg.condition s hs) fun subject s' hs' hsubject => ?_
  refine yields_expect_bind hs' fun hs' _ => ?_
  refine yields_advance_bind hs' fun hs' => ?_
  refine Yields.bind (sound_repeated
    (I := fun r => (∀ c ∈ r.1, CaseFormed c) ∧ ∀ b ∈ r.2, (Node.block b).Formed)
    (R := fun r => (∀ c ∈ r.1, CaseFormed c) ∧ ∀ b ∈ r.2, (Node.block b).Formed)
    (by simp) (fun r hr s hs => ?_) _ hs') fun r s' hs' hr => ?_
  · obtain ⟨cases, default⟩ := r
    obtain ⟨hcases, hdefault⟩ := hr
    rw [yields_current_bind]
    split
    · exact yields_pure hs
        ⟨fun c hc => hcases c (List.mem_reverse.mp hc), hdefault⟩
    · refine Yields.bind (hg.caseHere s hs) fun c s' hs' hc => ?_
      refine yields_advance_bind hs' fun hs'' => yields_pure hs'' ⟨?_, hdefault⟩
      intro c' hc'
      rcases List.mem_cons.mp hc' with rfl | hmem
      · exact hc
      · exact hcases c' hmem
    · refine Yields.bind (hg.defaultHere s hs) fun b s' hs' hb => ?_
      refine yields_advance_bind hs' fun hs'' => yields_pure hs'' ⟨hcases, ?_⟩
      simpa using hb
    · exact yields_unexpected hs
    · exact yields_unexpected hs
  · rw [yields_spanFrom_bind]
    exact yields_pure hs' (formed_switch hsubject hr.1 hr.2)

/-! ### Operands -/

/-- The literal is kept as the lexer read it, and the lexer reads none but proper ones.
-/
theorem sound_floatHere {s : State} (hs : s.Proper)
    (hkind : s.current.kind = .float) :
    Yields floatHere s fun e _ => (expr e).Formed := by
  unfold floatHere
  rw [yields_current_bind, yields_here_bind]
  split
  · refine yields_pure hs (formed_expr [] (fun _ => rfl) ?_ (by simp))
    exact hs.current.float hkind
  · exact yields_fail hs

theorem formed_exprs {es : List Expr} (hes : ∀ e ∈ es, (expr e).Formed) :
    ∀ n ∈ es.map expr, n.Formed := by
  intro n hn
  obtain ⟨e, he, rfl⟩ := List.mem_map.mp hn
  exact hes e he

/-- The items are collected in reverse, and the loop preserves that each is well formed.
-/
theorem Sound.expressionList (hg : g.Sound) (close : Token.Kind) :
    Parser.Sound (g.expressionList close) fun es =>
      ∀ e ∈ es, (expr e).Formed := by
  intro s hs
  unfold Grammar.expressionList
  rw [yields_nextIs_bind]
  split
  · exact yields_advance_bind hs fun hs' => yields_pure hs' (by simp)
  · refine Yields.bind (hg.operand s hs) fun first s' hs' hfirst => ?_
    refine Yields.bind (sound_repeated
      (I := fun es => ∀ e ∈ es, (expr e).Formed)
      (R := fun es => ∀ e ∈ es, (expr e).Formed)
      (by simpa using hfirst) (fun es hes s hs => ?_) _ hs')
      fun es s' hs' hes => ?_
    · have hdone : ∀ e ∈ es.reverse, (expr e).Formed :=
        fun e he => hes e (List.mem_reverse.mp he)
      refine Yields.bind (sound_takeComma s hs) fun more s' hs' _ => ?_
      split
      · rw [yields_nextIs_bind]
        split
        · exact yields_pure hs' hdone
        · refine Yields.bind (hg.operand s' hs') fun e s' hs' he => ?_
          refine yields_pure hs' fun e' he' => ?_
          rcases List.mem_cons.mp he' with rfl | hmem
          · exact he
          · exact hes e' hmem
      · exact yields_pure hs' hdone
    · exact yields_expect_bind hs' fun hs'' _ => yields_pure hs'' hes

/-- Whatever holds of each item that is read holds of all items of the list. -/
theorem sound_braceList {α : Type} {item : Parser α} {Q : α → Prop}
    (h : Parser.Sound item Q) :
    Parser.Sound (braceList item) fun as => ∀ a ∈ as, Q a := by
  intro s hs
  unfold braceList
  refine Yields.bind (sound_repeated (I := fun as => ∀ a ∈ as, Q a)
    (R := fun as => ∀ a ∈ as, Q a) (by simp) (fun as has s hs => ?_) _ hs)
    fun as s' hs' has => ?_
  · rw [yields_nextIs_bind]
    split
    · exact yields_pure hs fun a ha => has a (List.mem_reverse.mp ha)
    · refine Yields.bind (h s hs) fun a s' hs' ha => ?_
      have hall : ∀ a' ∈ a :: as, Q a' := by
        intro a' ha'
        rcases List.mem_cons.mp ha' with rfl | hmem
        · exact ha
        · exact has a' hmem
      rw [yields_nextIs_bind]
      split
      · exact yields_pure hs' hall
      · exact yields_expect_bind hs' fun hs'' _ => yields_pure hs'' hall
  · exact yields_advance_bind hs' fun hs'' => yields_pure hs'' has

/-- The name of a field has been asked for, so it is an identifier. -/
theorem Sound.field (hg : g.Sound) :
    Parser.Sound g.field fun f =>
      f.name.isIdentifier = true ∧ (expr f.value).Formed := by
  intro s hs
  unfold Grammar.field
  refine yields_expect_bind hs fun hname hkind => ?_
  rw [yields_nameHere_bind]
  refine yields_expect_bind hname fun hs' _ => ?_
  refine Yields.bind (hg.operand _ hs') fun e s' hs' he => ?_
  exact yields_pure hs' ⟨hname.nameHere hkind, he⟩

theorem Sound.entry (hg : g.Sound) :
    Parser.Sound g.entry fun e =>
      (expr e.key).Formed ∧ (expr e.value).Formed := by
  intro s hs
  unfold Grammar.entry
  refine Yields.bind (hg.operand s hs) fun key s' hs' hkey => ?_
  refine yields_expect_bind hs' fun hs' _ => ?_
  refine Yields.bind (hg.operand _ hs') fun value s' hs' hvalue => ?_
  exact yields_pure hs' ⟨hkey, hvalue⟩

/-- A name of a type is a term as well. -/
theorem formed_name {id : Name} (h : Syntax.isTerm id.text = true) :
    (expr (.name id)).Formed :=
  formed_expr [] (fun _ => rfl) h (by simp)

/-- A record takes its name from the token that an operand would be. -/
theorem Sound.nameOrRecord (hg : g.Sound) {s : State} (hs : s.Proper)
    (hkind : s.current.kind = .ident) :
    Yields g.nameOrRecord s fun e _ => (expr e).Formed := by
  unfold Grammar.nameOrRecord
  rw [yields_nameHere_bind, yields_nextIs_bind, yields_insideCase_bind]
  split
  · exact yields_pure hs (formed_name (hs.isTerm (.inl hkind)))
  · refine yields_advance_bind hs fun hs' => ?_
    refine Yields.bind (sound_braceList hg.field _ hs')
      fun fields s' hs' hfields => ?_
    rw [yields_spanFrom_bind]
    refine yields_pure hs' (formed_expr (fields.map fun f => expr f.value)
      (fun _ => rfl) ?_ fun n hn => ?_)
    · refine Bool.and_eq_true_iff.mpr ⟨hs.nameHere hkind, ?_⟩
      exact List.all_eq_true.mpr fun f hf => (hfields f hf).1
    · obtain ⟨f, hf, rfl⟩ := List.mem_map.mp hn
      exact (hfields f hf).2

/-- The parts of a map are its keys and its values. -/
theorem Sound.mapHere (hg : g.Sound) :
    Parser.Sound g.mapHere fun e => (expr e).Formed := by
  intro s hs
  unfold Grammar.mapHere
  rw [yields_here_bind]
  refine Yields.bind (sound_braceList hg.entry s hs)
    fun entries s' hs' hentries => ?_
  rw [yields_spanFrom_bind]
  refine yields_pure hs' (formed_expr
    (entries.flatMap fun e => [expr e.key, expr e.value])
    (fun _ => rfl) rfl fun n hn => ?_)
  obtain ⟨e, he, hn⟩ := List.mem_flatMap.mp hn
  obtain ⟨hkey, hvalue⟩ := hentries e he
  rcases List.mem_cons.mp hn with rfl | hn
  · exact hkey
  · rw [List.mem_singleton.mp hn]
    exact hvalue

theorem Sound.arrayHere (hg : g.Sound) :
    Parser.Sound g.arrayHere fun e => (expr e).Formed := by
  intro s hs
  unfold Grammar.arrayHere
  rw [yields_here_bind]
  refine Yields.bind (hg.expressionList _ s hs) fun es s' hs' hes => ?_
  rw [yields_spanFrom_bind]
  exact yields_pure hs' (formed_expr (es.map expr) (fun _ => rfl) rfl
    (formed_exprs hes))

/-- To step a value in front of it is an operation like any other here. -/
theorem Sound.unaryHere (hg : g.Sound) :
    Parser.Sound g.unaryHere fun e => (expr e).Formed := by
  intro s hs
  unfold Grammar.unaryHere
  rw [yields_here_bind, yields_current_bind]
  refine yields_advance_bind hs fun hs' => ?_
  refine Yields.bind (hg.expression .unary _ hs') fun e s' hs' he => ?_
  exact yields_pure hs' (formed_expr [expr e] (fun _ => rfl) rfl
    (by simpa using he))

theorem Sound.spreadHere (hg : g.Sound) :
    Parser.Sound g.spreadHere fun e => (expr e).Formed := by
  intro s hs
  unfold Grammar.spreadHere
  rw [yields_here_bind]
  refine yields_advance_bind hs fun hs' => ?_
  refine Yields.bind (hg.expression .unary _ hs') fun e s' hs' he => ?_
  exact yields_pure hs' (formed_expr [expr e] (fun _ => rfl) rfl
    (by simpa using he))

/-- What the parameters have to be depends on how many there are. -/
theorem Sound.arrowBody (hg : g.Sound) {params : List Name}
    (hparams : Node.arrowIsWellFormed params = true) (start : Location) :
    Parser.Sound (g.arrowBody params start) fun e => (expr e).Formed := by
  intro s hs
  unfold Grammar.arrowBody
  refine Yields.bind (hg.operand s hs) fun e s' hs' he => ?_
  exact yields_pure hs' (formed_expr [expr e] (fun _ => rfl) hparams
    (by simpa using he))

/-- The names of several parameters. -/
theorem arrowIsWellFormed_of_identifiers {params : List Name}
    (h : ∀ p ∈ params, p.isIdentifier = true) :
    Node.arrowIsWellFormed params = true := by
  unfold Node.arrowIsWellFormed
  split
  · next param =>
    have hparam : Syntax.isIdentifier param.text = true := h param (by simp)
    unfold Syntax.isTerm
    rw [hparam]
    rfl
  · exact List.all_eq_true.mpr h

/-- A group that turns out to be the parameters of an arrow function has names only,
since each token was asked for. -/
theorem Sound.groupHere (hg : g.Sound) :
    Parser.Sound g.groupHere fun e => (expr e).Formed := by
  intro s hs
  unfold Grammar.groupHere
  rw [yields_here_bind, yields_nextIs_bind]
  split
  · refine yields_advance_bind hs fun hs' => ?_
    refine yields_expect_bind hs' fun hs'' _ => ?_
    exact hg.arrowBody rfl _ _ hs''
  · refine yields_advance_bind hs fun hs' => ?_
    rw [yields_currentIs_bind, yields_nextKind_bind]
    split
    · next hkind =>
      have hfirst : s.advanced.current.kind = .ident := by simpa using hkind.1
      rw [yields_nameHere_bind]
      refine Yields.bind (sound_repeated
        (I := fun names => ∀ n ∈ names, Name.isIdentifier n = true)
        (R := fun names => ∀ n ∈ names, Name.isIdentifier n = true)
        (by simp) (fun names hnames s hs => ?_) _ hs')
        fun names s' hs'' hnames => ?_
      · refine Yields.bind (sound_takeComma s hs) fun more s' hs' _ => ?_
        split
        · refine yields_expect_bind hs' fun hname hkind => ?_
          rw [yields_nameHere_bind]
          refine yields_pure hname fun n hn => ?_
          rcases List.mem_cons.mp hn with rfl | hmem
          · exact hname.nameHere hkind
          · exact hnames n hmem
        · exact yields_pure hs' fun n hn => hnames n (List.mem_reverse.mp hn)
      · refine yields_expect_bind hs'' fun hs'' _ => ?_
        refine yields_expect_bind hs'' fun hs'' _ => ?_
        refine hg.arrowBody (arrowIsWellFormed_of_identifiers ?_) _ _ hs''
        intro n hn
        rcases List.mem_cons.mp hn with rfl | hmem
        · exact hs'.nameHere hfirst
        · exact hnames n hmem
    · split
      · next hkind =>
        have hname : s.advanced.current.kind = .ident := by simpa using hkind.1
        rw [yields_nameHere_bind]
        refine yields_advance_bind hs' fun hs'' => ?_
        rw [yields_nextIs_bind]
        split
        · refine yields_advance_bind hs'' fun hs'' => ?_
          refine hg.arrowBody (arrowIsWellFormed_of_identifiers ?_) _ _ hs''
          intro n hn
          rw [List.mem_singleton.mp hn]
          exact hs'.nameHere hname
        · exact yields_pure hs'' (formed_name (hs'.isTerm (.inl hname)))
      · refine Yields.bind (hg.expression .lowest _ hs') fun e s' hs' he => ?_
        exact yields_expect_bind hs' fun hs'' _ => yields_pure hs'' he

/-- The name of a function expression is taken as it stands, whatever token it is. -/
theorem Sound.functionHere (hg : g.Sound) :
    Parser.Sound g.functionHere fun e => (expr e).Formed := by
  intro s hs
  unfold Grammar.functionHere
  rw [yields_here_bind]
  refine Yields.bind (Q := fun _ _ => True) ?_ fun name s' hs' _ => ?_
  · rw [yields_nextIs_bind]
    split
    · refine yields_advance_bind hs fun hs' => ?_
      rw [yields_current_bind]
      exact yields_pure hs' trivial
    · exact yields_pure hs trivial
  · refine yields_expect_bind hs' fun hs' _ => ?_
    refine Yields.bind (hg.functionRest _ _ _ hs') fun f s' hs' hf => ?_
    exact yields_pure hs' (Node.formed_functionExpr hf.1)

/-- A node without parts need only be right in itself. -/
theorem formed_leaf {e : Expr} (hparts : ∀ b, Node.ofExpr b e = [])
    (h : Node.exprIsWellFormed e = true) : (expr e).Formed :=
  formed_expr [] hparts h (by simp)

/-- One case for each kind of token that an operand starts with. -/
theorem Sound.operandHere (hg : g.Sound) :
    Parser.Sound g.operandHere fun e => (expr e).Formed := by
  intro s hs
  unfold Grammar.operandHere
  rw [yields_current_bind, yields_here_bind]
  split
  case h_1 hkind => exact hg.nameOrRecord hs hkind
  case h_2 hkind =>
    refine Yields.bind (sound_integerHere hs hkind) fun n s' hs' hn => ?_
    exact yields_pure hs' (formed_leaf (fun _ => rfl) (decide_eq_true hn))
  case h_3 hkind => exact sound_floatHere hs hkind
  case h_4 => exact yields_pure hs (formed_leaf (fun _ => rfl) rfl)
  case h_5 => exact yields_pure hs (formed_leaf (fun _ => rfl) rfl)
  case h_6 => exact yields_pure hs (formed_leaf (fun _ => rfl) rfl)
  case h_7 => exact hg.unaryHere s hs
  case h_8 => exact hg.unaryHere s hs
  case h_9 => exact hg.unaryHere s hs
  case h_10 => exact hg.unaryHere s hs
  case h_11 => exact hg.groupHere s hs
  case h_12 => exact hg.arrayHere s hs
  case h_13 => exact hg.mapHere s hs
  case h_14 => exact hg.branchHere s hs
  case h_15 => exact hg.whileHere s hs
  case h_16 => exact hg.forHere s hs
  case h_17 => exact hg.switchHere s hs
  case h_18 =>
    refine Yields.bind (hg.attempt s hs) fun t s' hs' ht => ?_
    exact yields_pure hs' ht.expr
  case h_19 => exact hg.functionHere s hs
  case h_20 => exact hg.spreadHere s hs
  case h_21 => exact yields_fail hs
  case h_22 => exact yields_fail hs
  case h_23 =>
    split
    · next htype =>
      rw [yields_nameHere_bind]
      exact yields_pure hs (formed_name (hs.isTerm (.inr htype)))
    · exact yields_fail hs

/-! ### Operators -/

section

variable {left : Expr} (hleft : (expr left).Formed)

include hleft

/-- The left side has been read before, so that it is well formed is a hypothesis. -/
theorem Sound.binaryHere (hg : g.Sound) (op : BinaryOp) :
    Parser.Sound (g.binaryHere left op) fun e => (expr e).Formed := by
  intro s hs
  unfold Grammar.binaryHere
  rw [yields_current_bind]
  refine yields_advance_bind hs fun hs' => ?_
  refine Yields.bind (hg.expression _ _ hs') fun right s' hs' hright => ?_
  refine yields_pure hs' (formed_expr [expr left, expr right] (fun _ => rfl)
    rfl ?_)
  simp [hleft, hright]

theorem Sound.assignHere (hg : g.Sound) (op : AssignOp) :
    Parser.Sound (g.assignHere left op) fun e => (expr e).Formed := by
  intro s hs
  unfold Grammar.assignHere
  refine Yields.bind (hg.operand s hs) fun value s' hs' hvalue => ?_
  refine yields_pure hs' (formed_expr [expr left, expr value] (fun _ => rfl)
    rfl ?_)
  simp [hleft, hvalue]

theorem Sound.rangeHere (hg : g.Sound) :
    Parser.Sound (g.rangeHere left) fun e => (expr e).Formed := by
  intro s hs
  unfold Grammar.rangeHere
  refine yields_advance_bind hs fun hs' => ?_
  refine Yields.bind (hg.expression _ _ hs') fun stop s' hs' hstop => ?_
  refine yields_pure hs' (formed_expr [expr left, expr stop] (fun _ => rfl)
    rfl ?_)
  simp [hleft, hstop]

theorem Sound.ternaryHere (hg : g.Sound) :
    Parser.Sound (g.ternaryHere left) fun e => (expr e).Formed := by
  intro s hs
  unfold Grammar.ternaryHere
  refine Yields.bind (hg.operand s hs) fun e s' hs' he => ?_
  refine yields_expect_bind hs' fun hs' _ => ?_
  refine Yields.bind (hg.operand _ hs') fun e' s' hs' he' => ?_
  refine yields_pure hs' (formed_expr [expr left, expr e, expr e']
    (fun _ => rfl) rfl ?_)
  simp [hleft, he, he']

/-- A name in front of an arrow has been read as an operand, so it may be the name of a
type. -/
theorem Sound.arrowHere (hg : g.Sound) :
    Parser.Sound (g.arrowHere left) fun e => (expr e).Formed := by
  intro s hs
  unfold Grammar.arrowHere
  split
  · next param =>
    have hparam : Syntax.isTerm param.text = true := hleft.here false
    have hparams : Node.arrowIsWellFormed [param] = true := hparam
    exact hg.arrowBody hparams _ s hs
  · exact yields_fail hs

theorem Sound.callHere (hg : g.Sound) :
    Parser.Sound (g.callHere left) fun e => (expr e).Formed := by
  intro s hs
  unfold Grammar.callHere
  refine Yields.bind (hg.expressionList _ s hs) fun args s' hs' hargs => ?_
  rw [yields_spanFrom_bind]
  refine yields_pure hs' (formed_expr (expr left :: args.map expr)
    (fun _ => rfl) rfl fun n hn => ?_)
  rcases List.mem_cons.mp hn with rfl | hn
  · exact hleft
  · exact formed_exprs hargs n hn

omit hleft in
theorem Sound.sliceStop (hg : g.Sound) :
    Parser.Sound g.sliceStop fun e? => ∀ e ∈ e?, (expr e).Formed := by
  intro s hs
  unfold Grammar.sliceStop
  refine Yields.bind (hg.operandUnless _ s hs) fun e? s' hs' he? => ?_
  exact yields_expect_bind hs' fun hs'' _ => yields_pure hs'' he?

/-- Both ends of a slice may be missing. -/
theorem formed_slice {start stop : Option Expr} {loc : Location}
    (hstart : ∀ e ∈ start, (expr e).Formed)
    (hstop : ∀ e ∈ stop, (expr e).Formed) :
    (expr (.slice left start stop loc)).Formed := by
  refine formed_expr
    (expr left :: start.toList.map expr ++ stop.toList.map expr)
    (fun _ => rfl) rfl fun n hn => ?_
  rcases List.mem_append.mp hn with hn | hn
  · rcases List.mem_cons.mp hn with rfl | hn
    · exact hleft
    · exact formed_exprs (fun e he => hstart e (Option.mem_toList.mp he)) n hn
  · exact formed_exprs (fun e he => hstop e (Option.mem_toList.mp he)) n hn

theorem Sound.indexHere (hg : g.Sound) :
    Parser.Sound (g.indexHere left) fun e => (expr e).Formed := by
  intro s hs
  unfold Grammar.indexHere
  rw [yields_nextIs_bind]
  split
  · refine yields_advance_bind hs fun hs' => ?_
    refine Yields.bind (hg.sliceStop _ hs') fun stop s' hs' hstop => ?_
    rw [yields_spanFrom_bind]
    exact yields_pure hs' (formed_slice hleft (by simp) hstop)
  · refine Yields.bind (hg.operand s hs) fun index s' hs' hindex => ?_
    rw [yields_nextIs_bind]
    split
    · refine yields_advance_bind hs' fun hs' => ?_
      refine Yields.bind (hg.sliceStop _ hs') fun stop s' hs' hstop => ?_
      rw [yields_spanFrom_bind]
      exact yields_pure hs' (formed_slice hleft (by simpa using hindex) hstop)
    · refine yields_expect_bind hs' fun hs' _ => ?_
      rw [yields_spanFrom_bind]
      refine yields_pure hs' (formed_expr [expr left, expr index]
        (fun _ => rfl) rfl ?_)
      simp [hleft, hindex]

/-- Behind the dot the token was seen to be a name before it was taken. -/
theorem sound_memberHere :
    Parser.Sound (memberHere left) fun e => (expr e).Formed := by
  intro s hs
  unfold memberHere
  rw [yields_nextKind_bind]
  split
  · next hkind =>
    refine yields_advance_bind hs fun hs' => ?_
    rw [yields_nameHere_bind]
    refine yields_pure hs' (formed_expr [expr left] (fun _ => rfl) ?_
      (by simpa using hleft))
    exact hs'.isTerm (by rwa [s.advanced_current])
  · exact yields_failAtNext hs

theorem sound_stepHere (op : StepOp) :
    Parser.Sound (stepHere left op) fun e => (expr e).Formed := by
  intro s hs
  unfold stepHere
  rw [yields_spanFrom_bind]
  exact yields_pure hs (formed_expr [expr left] (fun _ => rfl) rfl
    (by simpa using hleft))

/-- One case for each operator.  What is no operator gives back the left side. -/
theorem Sound.operatorHere (hg : g.Sound) :
    Parser.Sound (g.operatorHere left) fun e => (expr e).Formed := by
  intro s hs
  unfold Grammar.operatorHere
  rw [yields_current_bind]
  dsimp only
  split
  · exact Sound.binaryHere hleft hg _ s hs
  · exact Sound.assignHere hleft hg _ s hs
  · exact Sound.rangeHere hleft hg s hs
  · exact Sound.ternaryHere hleft hg s hs
  · exact Sound.arrowHere hleft hg s hs
  · exact Sound.callHere hleft hg s hs
  · exact Sound.indexHere hleft hg s hs
  · exact sound_memberHere hleft s hs
  · exact sound_stepHere hleft _ s hs
  · exact sound_stepHere hleft _ s hs
  · exact yields_pure hs hleft

end

/-- The loop preserves that what has been read so far is well formed. -/
theorem Sound.expressionHere (hg : g.Sound) (precedence : Precedence) :
    Parser.Sound (g.expressionHere precedence) fun e => (expr e).Formed := by
  intro s hs
  unfold Grammar.expressionHere
  refine Yields.bind (hg.operandHere s hs) fun first s' hs' hfirst => ?_
  refine sound_repeated (I := fun e => (expr e).Formed) hfirst
    (fun left hleft s hs => ?_) s' hs'
  rw [yields_nextKind_bind]
  split
  · refine yields_advance_bind hs fun hs' => ?_
    refine Yields.bind (Sound.operatorHere hleft hg _ hs') fun e s' hs' he => ?_
    exact yields_pure hs' he
  · exact yields_pure hs hleft

/-! ### Statements -/

/-- To give up yields nothing, so nothing is to be shown of it. -/
theorem yields_giveUp {α : Type} {Q : α → State → Prop} {s : State}
    (hs : s.Proper) : Yields (giveUp : Parser α) s Q :=
  hs.after

/-- One case for each word that a statement starts with. -/
theorem Sound.statementBody (hg : g.Sound) :
    Parser.Sound g.statementBody fun st => (stmt st).Formed := by
  have hbinding : ∀ (constant : Bool) (s : State), s.Proper →
      Yields (g.binding constant) s fun st _ => (stmt st).Formed := by
    intro constant s hs
    refine Outcome.After.mono (hg.binding constant s hs) fun st _ hst => ?_
    obtain ⟨name, type, value, loc, rfl, hname, htype, hvalue⟩ := hst
    exact Node.formed_bind hname htype hvalue
  have hexpression : ∀ s : State, s.Proper →
      Yields g.expressionStatement s fun st _ => (stmt st).Formed := by
    intro s hs
    refine Outcome.After.mono (hg.expressionStatement s hs) fun st _ hst => ?_
    obtain ⟨e, loc, rfl, he⟩ := hst
    exact formed_stmt [expr e] (fun _ => rfl) rfl (by simpa using he)
  intro s hs
  unfold Grammar.statementBody
  rw [yields_current_bind]
  split
  · exact hbinding false s hs
  · exact hbinding true s hs
  · exact hg.returning s hs
  · exact sound_inclusion s hs
  · refine Yields.bind (hg.attempt s hs) fun t s' hs' ht => ?_
    exact yields_pure hs' ht.stmt
  · exact sound_structDeclaration s hs
  · exact sound_enumDeclaration s hs
  · rw [yields_here_bind]
    exact yields_pure hs (Node.formed_of_leaf (fun _ => rfl) rfl)
  · rw [yields_here_bind]
    exact yields_pure hs (Node.formed_of_leaf (fun _ => rfl) rfl)
  · exact yields_giveUp hs
  · rw [yields_nextIs_bind]
    split
    · exact hexpression s hs
    · exact hg.definition s hs
  · exact hexpression s hs

theorem Sound.statementHere (hg : g.Sound) :
    Parser.Sound g.statementHere fun st => (stmt st).Formed := by
  intro s hs
  unfold Grammar.statementHere
  refine Yields.bind (hg.statementBody s hs) fun st s' hs' hst => ?_
  rw [yields_nextIs_bind]
  split
  · exact yields_advance_bind hs' fun hs'' => yields_pure hs'' hst
  · exact yields_pure hs' hst

end Grammar

/-! ### Programs -/

/-- The induction over the bound: each level reads with the one below it. -/
theorem sound_grammar (n : Nat) : (grammar n).Sound := by
  induction n with
  | zero => exact ⟨fun _ _ _ => trivial, fun _ _ => trivial,
      fun _ _ => trivial, fun _ _ => trivial⟩
  | succ n ih =>
    exact ⟨fun precedence => ih.expressionHere precedence, ih.statementHere,
      ih.branchHere, ih.typeHere⟩

/-- Statements that fail are left out, and what is kept is well formed. -/
theorem sound_program {g : Grammar} (hg : g.Sound) :
    Sound (program g) fun p => ∀ st ∈ p.statements, (stmt st).Formed := by
  intro s hs
  unfold program
  rw [yields_here_bind]
  refine Yields.bind (sound_repeated
    (I := fun sts => ∀ st ∈ sts, (stmt st).Formed)
    (R := fun sts => ∀ st ∈ sts, (stmt st).Formed)
    (by simp) (fun sts hsts s hs => ?_) _ hs) fun sts s' hs' hsts => ?_
  · rw [yields_currentIs_bind]
    split
    · exact yields_pure hs fun st hst => hsts st (List.mem_reverse.mp hst)
    · refine Yields.bind (hg.statement.optional s hs) fun st? s' hs' hst? => ?_
      refine yields_advance_bind hs' fun hs'' => yields_pure hs'' ?_
      intro st hst
      rcases List.mem_append.mp hst with hnew | hold
      · exact hst? st (Option.mem_toList.mp hnew)
      · exact hsts st hold
  · rw [yields_spanFrom_bind]
    exact yields_pure hs' hsts

/-- The parser starts with tokens of the lexer, and with the last one once they have run
out. -/
theorem State.proper_initial {file source : String} {tokens : List Token}
    (h : ∀ t ∈ tokens, t.Proper) : (State.initial file source tokens).Proper := by
  have hlast : (tokens.getLastD default).Proper := by
    cases hts : tokens with
    | nil => exact Token.proper_of_isPlain rfl
    | cons t ts =>
      refine h _ ?_
      rw [hts, List.getLastD_cons]
      exact List.getLastD_mem_cons
  have hhead : ∀ ts : List Token, (∀ t ∈ ts, t.Proper) →
      (ts.headD (tokens.getLastD default)).Proper := by
    intro ts hts
    cases ts with
    | nil => exact hlast
    | cons t ts => exact hts t List.mem_cons_self
  exact ⟨hhead _ h, hhead _ fun t ht => h t (List.mem_of_mem_tail ht),
    fun t ht => h t (List.mem_of_mem_drop ht)⟩

end Parser

/-- A program that the parser accepts is well formed. -/
theorem wellFormed_of_parse {file source : String} {p : Program}
    (hparse : parse file source = .ok p) : Node.EveryOf Node.WellFormed p := by
  have hsound := Parser.sound_program
    (Parser.sound_grammar (Parser.nestingBound (tokenize source).length))
    (Parser.State.initial file source (tokenize source))
    (Parser.State.proper_initial (proper_tokenize source))
  unfold parse at hparse
  unfold Parser.Yields at hsound
  dsimp only at hparse
  split at hparse
  · next program s hrun =>
    rw [hrun] at hsound
    split at hparse
    · obtain rfl := Except.ok.inj hparse
      intro inCase n hn
      obtain ⟨st, hst, rfl⟩ := List.mem_map.mp (Node.mem_of_inTurn hn)
      exact hsound.2 st hst inCase
    · cases hparse
  · cases hparse
  · cases hparse

end Script
