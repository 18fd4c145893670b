import Script.Proofs.Syntax.PlacedDeclarations

/-!
# Where operands stand

An operand stands between its first token and its last one.
-/

namespace Script

namespace Parser

open State

variable {file : String} {all : List Token} {g : Grammar} {s s' first : State}
  {xs : List Site}

/-! ### Conditionals and loops -/

/-- A condition is laid by its expression, between parentheses that are no sites. -/
theorem lays_condition (hg : g.Lays file all) (hs : s.Over file all) :
    Leads True g.condition s fun e s' => s.Lays file all s' [.expr e] := by
  unfold Grammar.condition
  refine leads_expect_bind fun _ => ?_
  refine (lays_operand hg hs.advanced).bind fun e s1 _ h => ?_
  exact leads_expect_bind fun hclose =>
    leads_pure ((h.of_step hs).lays_step hclose (by decide))

/-- Another branch becomes a block that has its place. -/
theorem lays_alternative (hg : g.Lays file all) (hs : s.Over file all) :
    Leads True g.alternative s fun b s' => s.Lays file all s' [.block b] := by
  unfold Grammar.alternative
  rw [leads_nextIs_bind]
  split
  · refine leads_advance_bind ((hg.branch hs.advanced).bind fun e s' _ h => ?_)
    have hstatement : s.Holds file all s' [.stmt (.expr e e.loc)] :=
      (h.of_step hs).wrap rfl rfl ⟨.nil, trivial⟩
    exact leads_pure ⟨hstatement.wrap rfl rfl ⟨List.pairwise_singleton _ _, trivial⟩, h.more⟩
  · exact (lays_nextBlock hg hs).mono fun b s' _ h => h.1

/-- The site begins at the word and ends where its last block does. -/
theorem lays_branchHere (hg : g.Lays file all) (hs : s.Over file all) :
    Leads True g.branchHere s fun e s' => s.Lays file all s' [.expr e] := by
  unfold Grammar.branchHere
  rw [leads_here_bind]
  refine (lays_condition hg hs).bind fun condition s1 _ h1 => ?_
  refine (lays_nextBlock hg h1.top).bind fun consequence s2 _ ⟨h2, _⟩ => ?_
  have h := h1.add h2.toHolds
  rw [leads_nextIs_bind]
  split
  · refine leads_advance_bind ((lays_alternative hg h.step.top).bind fun b s3 _ h3 => ?_)
    rw [leads_spanFrom_bind]
    exact leads_pure ⟨(h.step.add h3.toHolds).span rfl (by simp [Site.parts, Site.ofExpr])
      ⟨.nil, trivial⟩, h3.more⟩
  · rw [leads_spanFrom_bind]
    exact leads_pure ⟨h.span rfl (by simp [Site.parts, Site.ofExpr]) ⟨.nil, trivial⟩,
      h2.more⟩

theorem lays_whileHere (hg : g.Lays file all) (hs : s.Over file all) :
    Leads True g.whileHere s fun e s' => s.Lays file all s' [.expr e] := by
  unfold Grammar.whileHere
  rw [leads_here_bind]
  refine (lays_condition hg hs).bind fun condition s1 _ h1 => ?_
  refine (lays_nextBlock hg h1.top).bind fun body s2 _ ⟨h2, _⟩ => ?_
  rw [leads_spanFrom_bind]
  exact leads_pure ⟨(h1.add h2.toHolds).span rfl (by simp [Site.parts, Site.ofExpr])
    ⟨.nil, trivial⟩, h2.more⟩

/-- The statement has the place of its expression. -/
theorem lays_expressionStatement (hg : g.Lays file all) (hs : s.Over file all) :
    Leads True g.expressionStatement s fun st s' => s.Lays file all s' [.stmt st] := by
  unfold Grammar.expressionStatement
  exact (hg.expression .lowest hs).bind fun e s' _ h =>
    leads_pure ⟨h.wrap rfl rfl ⟨.nil, trivial⟩, h.more⟩

theorem lays_countingStart (hg : g.Lays file all) (hs : s.Over file all) :
    Leads True g.countingStart s fun st? s' =>
      s.Lays file all s' (st?.toList.map .stmt) := by
  have hsemicolon : ∀ st s1, s.Lays file all s1 [.stmt st] →
      Leads True (do expect .semicolon; return some st) s1 fun st? s' =>
        s.Lays file all s' (st?.toList.map .stmt) := by
    exact fun st s1 h => leads_expect_bind fun hnext =>
      leads_pure (h.lays_step hnext (by decide))
  unfold Grammar.countingStart
  rw [leads_current_bind]
  split
  · next hkind =>
    exact leads_pure (hs.holds.lays hkind (by decide))
  · exact (lays_binding hg hs false).bind fun st s1 _ h => hsemicolon st s1 h
  · exact (lays_binding hg hs true).bind fun st s1 _ h => hsemicolon st s1 h
  · exact (lays_expressionStatement hg hs).bind fun st s1 _ h => hsemicolon st s1 h

/-- What is left out lays no site. -/
theorem lays_operandUnless (hg : g.Lays file all) (hs : s.Over file all)
    (hmore : s.current.kind ≠ .eof) (stop : Token.Kind) :
    Leads True (g.operandUnless stop) s fun e? s' =>
      s.Lays file all s' (e?.toList.map .expr) := by
  unfold Grammar.operandUnless
  rw [leads_nextIs_bind]
  split
  · exact leads_pure ⟨hs.holds, hmore⟩
  · exact (lays_operand hg hs).bind fun e s' _ h => leads_pure h

/-- A header has no place of its own, so its parts are laid one after another. -/
theorem lays_loopHeader (hg : g.Lays file all) (hs : s.Over file all) :
    Leads True g.loopHeader s fun header s' => s.Lays file all s' header.sites := by
  unfold Grammar.loopHeader
  rw [leads_currentIs_bind, leads_nextKind_bind]
  split
  · rw [leads_nameHere_bind]
    have h := hs.holds.name.step
    refine leads_advance_bind ((lays_operand hg h.top).bind fun e s1 _ h1 => ?_)
    exact leads_expect_bind fun hclose =>
      leads_pure ((h.add h1.toHolds).lays_step hclose (by decide))
  · split
    · rw [leads_nameHere_bind]
      refine leads_advance_bind (leads_expect_bind fun _ => ?_)
      rw [leads_nameHere_bind]
      have h := hs.holds.name.step.step.name
      refine leads_expect_bind fun _ => ?_
      refine (lays_operand hg h.step.top).bind fun e s1 _ h1 => ?_
      exact leads_expect_bind fun hclose =>
        leads_pure ((h.step.add h1.toHolds).lays_step hclose (by decide))
    · refine (lays_countingStart hg hs).bind fun start s1 _ h1 => ?_
      refine (lays_operandUnless hg h1.top h1.more _).bind fun condition s2 _ h2 => ?_
      refine leads_expect_bind fun hsemicolon => ?_
      have h := (h1.add h2.toHolds).lays_step hsemicolon (by decide)
      refine (lays_operandUnless hg h.top h.more _).bind fun update s3 _ h3 => ?_
      exact leads_expect_bind fun hclose =>
        leads_pure ((h.add h3.toHolds).lays_step hclose (by decide))

theorem lays_forHere (hg : g.Lays file all) (hs : s.Over file all) :
    Leads True g.forHere s fun e s' => s.Lays file all s' [.expr e] := by
  unfold Grammar.forHere
  rw [leads_here_bind]
  refine leads_expect_bind fun _ => leads_advance_bind ?_
  have h := hs.holds.step.step
  refine (lays_loopHeader hg h.top).bind fun header s1 _ h1 => ?_
  refine (lays_nextBlock hg h1.top).bind fun body s2 _ ⟨h2, _⟩ => ?_
  rw [leads_spanFrom_bind]
  exact leads_pure ⟨((h.add h1.toHolds).add h2.toHolds).span rfl
    (by simp [Site.parts, Site.ofExpr]) ⟨.nil, trivial⟩, h2.more⟩

/-! ### Switches -/

/-- A colon is a token and no site. -/
theorem lays_skipColon (hs : s.Over file all) (hmore : s.current.kind ≠ .eof) :
    Leads True Grammar.skipColon s fun _ s' => s.Lays file all s' [] := by
  unfold Grammar.skipColon
  refine leads_nextIs (fun hcolon => ?_) ?_
  · exact leads_advance.mono fun _ s' _ heq => heq ▸ hs.holds.lays_step hcolon (by decide)
  · exact leads_pure ⟨hs.holds, hmore⟩

theorem lays_defaultHere (hg : g.Lays file all) (hs : s.Over file all)
    (hmore : s.current.kind ≠ .eof) :
    Leads True g.defaultHere s fun b s' => s.Lays file all s' [.block b] := by
  unfold Grammar.defaultHere
  refine (lays_skipColon hs hmore).bind fun _ s1 _ h1 => ?_
  exact (lays_nextBlock hg h1.top).mono fun b s' _ ⟨h, _⟩ => ⟨h1.add h.toHolds, h.more⟩

/-- The values of a case stand in front of its body. -/
theorem lays_caseHere (hg : g.Lays file all) (hs : s.Over file all) :
    Leads True g.caseHere s fun c s' => s.Lays file all s' [.case c] := by
  have hvalues : Leads True (inCaseValues (commaList g.operand)) s fun values s' =>
      s.Lays file all s' (values.map .expr) := by
    have hmode : ({ s with inCase := true } : State).Over file all := hs.congr rfl rfl
    refine leads_inCaseValues (lays_commaList (lays_operand hg) hmode) fun values s' h => ?_
    exact ⟨(h.toHolds.inCase hs).sub (by grind), h.more⟩
  unfold Grammar.caseHere
  rw [leads_here_bind]
  refine hvalues.bind fun values s1 _ h1 => ?_
  refine (lays_skipColon h1.top h1.more).bind fun _ s2 _ h2 => ?_
  refine (lays_nextBlock hg h2.top).bind fun body s3 _ ⟨h3, _⟩ => ?_
  rw [leads_spanFrom_bind]
  exact leads_pure ⟨((h1.add h2.toHolds).add h3.toHolds).span rfl (by simp [Site.parts])
    ⟨.nil, trivial⟩, h3.more⟩

/-- What the passes preserve is that the cases lie one behind the other, and a default
among them. -/
theorem holds_cases (hg : g.Lays file all) (h : first.Holds file all s xs) :
    Leads True (repeated g.casePass ([], none)) s fun read s' =>
      first.Holds file all s'
        (xs ++ (read.1.map .case ++ read.2.toList.map .block)) ∧
        s'.current.kind = .rbrace := by
  refine leads_repeated_of (I := fun read s' => first.Holds file all s'
    (xs ++ (read.1.map .case ++ read.2.toList.map .block))) (fun read s' h => ?_)
    (by simpa using h)
  obtain ⟨cases, default⟩ := read
  unfold Grammar.casePass
  rw [leads_current_bind]
  split
  · next hclose => exact leads_pure ⟨h.sub (by simp [List.subset_def]), hclose⟩
  · refine (lays_caseHere hg h.top).bind fun c s'' _ h' => leads_advance_bind ?_
    exact leads_pure ((h.add h'.toHolds).step.sub (by grind))
  · next hdefault =>
    have hmore : s'.current.kind ≠ .eof := by
      rw [hdefault]
      decide
    refine (lays_defaultHere hg h.top hmore).bind fun b s'' _ h' => leads_advance_bind ?_
    exact leads_pure ((h.add h'.toHolds).step.sub (by grind))
  · exact leads_unexpected
  · exact leads_unexpected

theorem lays_switchHere (hg : g.Lays file all) (hs : s.Over file all) :
    Leads True g.switchHere s fun e s' => s.Lays file all s' [.expr e] := by
  rw [Grammar.switchHere_eq, leads_here_bind]
  refine (lays_condition hg hs).bind fun subject s1 _ h1 => ?_
  refine leads_expect_bind fun _ => leads_advance_bind ?_
  refine (holds_cases hg h1.step.step).bind fun read s2 _ ⟨h2, hclose⟩ => ?_
  obtain ⟨cases, default⟩ := read
  rw [leads_spanFrom_bind]
  have h := h2.lays hclose (by decide)
  exact leads_pure ⟨h.span rfl (by simp [Site.parts, Site.ofExpr]) ⟨.nil, trivial⟩, h.more⟩

/-! ### Records, maps and arrays -/

/-- The name of a field has a place, and its value another one behind it. -/
theorem lays_field (hg : g.Lays file all) (hs : s.Over file all) :
    Leads True g.field s fun f s' => s.Lays file all s' [.name f.name, .expr f.value] := by
  unfold Grammar.field
  refine leads_expect_bind fun _ => ?_
  rw [leads_nameHere_bind]
  refine leads_expect_bind fun _ => ?_
  have h := hs.holds.step.name.step
  refine (lays_operand hg h.top).bind fun value s' _ h' => ?_
  exact leads_pure ⟨h.add h'.toHolds, h'.more⟩

theorem lays_entry (hg : g.Lays file all) (hs : s.Over file all) :
    Leads True g.entry s fun e s' => s.Lays file all s' [.expr e.key, .expr e.value] := by
  unfold Grammar.entry
  refine (lays_operand hg hs).bind fun key s1 _ h1 => leads_expect_bind fun _ => ?_
  refine (lays_operand hg h1.step.top).bind fun value s2 _ h2 => ?_
  exact leads_pure ⟨h1.step.add h2.toHolds, h2.more⟩

/-- A record begins where its name does. -/
theorem lays_nameOrRecord (hg : g.Lays file all) (hs : s.Over file all)
    (hmore : s.current.kind ≠ .eof) :
    Leads True g.nameOrRecord s fun e s' => s.Lays file all s' [.expr e] := by
  unfold Grammar.nameOrRecord
  rw [leads_nameHere_bind, leads_nextIs_bind, leads_insideCase_bind]
  have h := hs.holds.name
  split
  · exact leads_pure ⟨h.wrap rfl rfl ⟨.nil, trivial⟩, hmore⟩
  · refine leads_advance_bind ?_
    refine (lays_braceList (lays_field hg) h.step.top).bind fun fields s' _ h' => ?_
    rw [leads_spanFrom_bind]
    exact leads_pure ⟨(h.step.add h'.toHolds).span rfl (by simp [Site.parts, Site.ofExpr])
      ⟨.nil, trivial⟩, h'.more⟩

theorem lays_mapHere (hg : g.Lays file all) (hs : s.Over file all) :
    Leads True g.mapHere s fun e s' => s.Lays file all s' [.expr e] := by
  unfold Grammar.mapHere
  rw [leads_here_bind]
  refine (lays_braceList (lays_entry hg) hs).bind fun entries s' _ h => ?_
  rw [leads_spanFrom_bind]
  exact leads_pure ⟨h.span rfl (by simp [Site.parts, Site.ofExpr]) ⟨.nil, trivial⟩, h.more⟩

/-- The items lie one behind the other, up to the closing token. -/
theorem lays_expressionList (hg : g.Lays file all) (hs : s.Over file all)
    {close : Token.Kind} (hclose : close ≠ .eof) :
    Leads True (g.expressionList close) s fun items s' =>
      s.Lays file all s' (items.map .expr) := by
  have hpass : ∀ items s', s.Holds file all s' (items.map .expr) →
      Leads True (g.itemPass close items) s' (Pass.Keeps
        (fun items s' => s.Holds file all s' (items.map .expr))
        fun items s' => s.Holds file all s' (items.map .expr)) := by
    intro items s' h
    have hdone : s.Holds file all s' (items.reverse.map .expr) := h.sub (by simp)
    unfold Grammar.itemPass
    refine leads_takeComma_bind (fun _ => ?_) (leads_pure hdone)
    rw [if_pos rfl, leads_nextIs_bind]
    split
    · exact leads_pure (hdone.step)
    · refine (lays_operand hg h.step.top).bind fun e s'' _ h' => ?_
      exact leads_pure ((h.step.add h'.toHolds).sub (by simp))
  rw [Grammar.expressionList_eq]
  refine leads_nextIs (fun hnext => ?_) ?_
  · exact leads_advance_bind (leads_pure (hs.holds.lays_step hnext hclose))
  · refine (lays_operand hg hs).bind fun e s1 _ h1 => ?_
    refine (leads_repeated_of hpass h1.toHolds).bind fun items s2 _ h2 => ?_
    exact leads_expect_bind fun hnext => leads_pure (h2.lays_step hnext hclose)

theorem lays_arrayHere (hg : g.Lays file all) (hs : s.Over file all) :
    Leads True g.arrayHere s fun e s' => s.Lays file all s' [.expr e] := by
  unfold Grammar.arrayHere
  rw [leads_here_bind]
  refine (lays_expressionList hg hs (by decide)).bind fun elements s' _ h => ?_
  rw [leads_spanFrom_bind]
  exact leads_pure ⟨h.span rfl (by simp [Site.parts, Site.ofExpr]) ⟨.nil, trivial⟩, h.more⟩

/-! ### Operators in front -/

/-- An expression around one behind the current token, which ends where that one does. -/
theorem State.Lays.around {e : Expr} {x : Site} (h : s.advanced.Lays file all s' [.expr e])
    (hs : s.Over file all) (hloc : x.loc = (locationOf s s.current).through e.loc)
    (hparts : x.parts = [.expr e]) (horderly : x.Orderly all) : s.Lays file all s' [x] := by
  have he := List.mem_singleton_self (Site.expr e)
  refine ⟨(h.of_step hs).reach hloc (h.stops _ he) (fun y hy => ?_) horderly, h.more⟩
  rw [hparts] at hy
  exact ⟨hy, by rw [List.mem_singleton.mp hy]; exact le_refl _⟩

theorem lays_unaryHere (hg : g.Lays file all) (hs : s.Over file all) :
    Leads True g.unaryHere s fun e s' => s.Lays file all s' [.expr e] := by
  unfold Grammar.unaryHere
  rw [leads_here_bind, leads_current_bind]
  refine leads_advance_bind ((hg.expression .unary hs.advanced).bind fun right s' _ h => ?_)
  exact leads_pure (h.around hs rfl rfl ⟨.nil, trivial⟩)

theorem lays_spreadHere (hg : g.Lays file all) (hs : s.Over file all) :
    Leads True g.spreadHere s fun e s' => s.Lays file all s' [.expr e] := by
  unfold Grammar.spreadHere
  rw [leads_here_bind]
  refine leads_advance_bind ((hg.expression .unary hs.advanced).bind fun value s' _ h => ?_)
  exact leads_pure (h.around hs rfl rfl ⟨.nil, trivial⟩)

/-! ### Groups and functions -/

/-- An arrow function whose parameters stand in front of the arrow. -/
theorem lays_arrowBody (hg : g.Lays file all) {params : List Name}
    (h : s.Holds file all s' (params.map .name)) (hmore : s'.current.kind ≠ .eof) :
    Leads True (g.arrowBody params (locationOf s s.current)) s'.advanced fun e s'' =>
      s.Lays file all s'' [.expr e] := by
  unfold Grammar.arrowBody
  refine (lays_operand hg h.step.top).bind fun body s'' _ h' => ?_
  have hbody := List.mem_singleton_self (Site.expr body)
  refine leads_pure ⟨(h.step.add h'.toHolds).reach rfl (h'.stops _ hbody) (fun y hy => ?_)
    ⟨.nil, trivial⟩, h'.more⟩
  refine ⟨hy, ?_⟩
  rcases List.mem_append.mp hy with hparam | hy
  · calc y.loc.stop
      _ ≤ s'.current.stop := h.stops y hparam
      _ ≤ s'.advanced.current.start := h.top.apart hmore
      _ ≤ body.loc.start := h'.starts _ hbody
      _ ≤ body.loc.stop := (h'.laid _ hbody).here.1.proper.nonempty.le
  · rw [List.mem_singleton.mp hy]
    exact le_refl _

/-- The names behind commas. -/
theorem holds_names (h : first.Holds file all s xs) :
    Leads True (repeated Grammar.namePass []) s fun names s' =>
      first.Holds file all s' (xs ++ names.map .name) := by
  refine leads_repeated_of
    (I := fun names s' => first.Holds file all s' (xs ++ names.map .name))
    (fun names s' h => ?_) (by simpa using h)
  unfold Grammar.namePass
  refine leads_takeComma_bind (fun _ => ?_) (leads_pure (h.sub (by simp)))
  refine leads_expect_bind fun _ => ?_
  rw [leads_nameHere_bind]
  exact leads_pure (h.step.step.name.sub (by grind))

/-- A group has the place of what is in it, unless it is the parameters of a function.
-/
theorem lays_groupHere (hg : g.Lays file all) (hs : s.Over file all) :
    Leads True g.groupHere s fun e s' => s.Lays file all s' [.expr e] := by
  rw [Grammar.groupHere_eq, leads_here_bind]
  refine leads_nextIs (fun hclose => ?_) ?_
  · refine leads_advance_bind (leads_expect_bind fun _ => ?_)
    have h : s.Lays file all s.advanced (([] : List Name).map .name) :=
      hs.holds.lays_step hclose (by decide)
    exact lays_arrowBody hg h.toHolds h.more
  · refine leads_advance_bind ?_
    have h := hs.holds.step
    rw [leads_currentIs_bind, leads_nextKind_bind]
    split
    · rw [leads_nameHere_bind]
      refine (holds_names h.name).bind fun names s' _ h' => ?_
      refine leads_expect_bind fun hclose => leads_expect_bind fun _ => ?_
      have hnames := h'.lays_step hclose (by decide)
      exact lays_arrowBody hg hnames.toHolds hnames.more
    · split
      · next hclose =>
        rw [leads_nameHere_bind]
        refine leads_advance_bind ?_
        have hname := h.name.lays_step hclose.2 (by decide)
        rw [leads_nextIs_bind]
        split
        · exact leads_advance_bind (lays_arrowBody hg hname.toHolds hname.more)
        · exact leads_pure ⟨hname.wrap rfl rfl ⟨.nil, trivial⟩, hname.more⟩
      · refine (hg.expression .lowest h.top).bind fun inner s' _ h' => ?_
        exact leads_expect_bind fun hclose =>
          leads_pure ((h.add h'.toHolds).lays_step hclose (by decide))

/-- The name behind the word has no place in the tree. -/
theorem lays_functionHere (hg : g.Lays file all) (hs : s.Over file all)
    (hdefine : s.current.kind = .defineWord) :
    Leads True g.functionHere s fun e s' => s.Lays file all s' [.expr e] := by
  have hfirst : s.current.kind ≠ .colon := by
    rw [hdefine]
    decide
  have hname : Leads True (do
      if ← nextIs .ident then
        advance
        return some (← current).text
      else
        return none) s fun _ s' => s.Holds file all s' [] ∧ ¬ PassesColon all s s' := by
    refine leads_nextIs (fun hident => ?_) ?_
    · refine leads_advance_bind ?_
      rw [leads_current_bind]
      refine leads_pure ⟨hs.holds.step, ?_⟩
      rw [passesColon_advanced hs, hident]
      decide
    · exact leads_pure ⟨hs.holds, not_passesColon_refl s⟩
  unfold Grammar.functionHere
  rw [leads_here_bind]
  refine hname.bind fun name s1 _ ⟨h1, hplain⟩ => leads_expect_bind fun hopen => ?_
  have hplain' : ¬ PassesColon all s s1.advanced := by
    rw [h1.passesColon_step, hopen]
    simpa using hplain
  refine (lays_functionRest hg h1.step hfirst hplain' name).bind fun f s2 _ h2 => ?_
  exact leads_pure ⟨h2.wrap rfl rfl ⟨.nil, trivial⟩, h2.more⟩

/-! ### Operands -/

/-- One case for each kind of token that an operand starts with. -/
theorem lays_operandHere (hg : g.Lays file all) (hs : s.Over file all)
    (hmore : s.current.kind ≠ .eof) :
    Leads True g.operandHere s fun e s' => s.Lays file all s' [.expr e] := by
  unfold Grammar.operandHere
  rw [leads_current_bind, leads_here_bind]
  split
  · exact lays_nameOrRecord hg hs hmore
  · refine leads_integerHere.bind ?_
    rintro n _ _ rfl
    exact leads_pure ⟨.leaf hs rfl rfl ⟨.nil, trivial⟩, hmore⟩
  · unfold floatHere
    rw [leads_current_bind, leads_here_bind]
    split
    · exact leads_pure ⟨.leaf hs rfl rfl ⟨.nil, trivial⟩, hmore⟩
    · exact leads_fail
  · exact leads_pure ⟨.leaf hs rfl rfl ⟨.nil, trivial⟩, hmore⟩
  · exact leads_pure ⟨.leaf hs rfl rfl ⟨.nil, trivial⟩, hmore⟩
  · exact leads_pure ⟨.leaf hs rfl rfl ⟨.nil, trivial⟩, hmore⟩
  iterate 4 · exact lays_unaryHere hg hs
  · exact lays_groupHere hg hs
  · exact lays_arrayHere hg hs
  · exact lays_mapHere hg hs
  · exact lays_branchHere hg hs
  · exact lays_whileHere hg hs
  · exact lays_forHere hg hs
  · exact lays_switchHere hg hs
  · exact (lays_attempt hg hs).bind fun t s' _ h =>
      leads_pure ⟨h.wrap rfl rfl ⟨.nil, trivial⟩, h.more⟩
  · next hdefine => exact lays_functionHere hg hs hdefine
  · exact lays_spreadHere hg hs
  · exact leads_fail
  · exact leads_fail
  · split
    · rw [leads_nameHere_bind]
      exact leads_pure ⟨hs.holds.name.wrap rfl rfl ⟨.nil, trivial⟩, hmore⟩
    · exact leads_fail

end Parser

end Script
