import Script.Proofs.Syntax.PlacedExpressions

/-!
# The spans of a program

An operator makes an expression that starts where the operand in front of it does.  With
that every production of the grammar places its results, and so the sites of every
accepted text lie one in the other, in the order of the text.
-/

namespace Script

namespace Parser

open State

variable {file : String} {all : List Token} {g : Grammar} {s s' first : State}
  {left : Expr} {xs : List Site} {x : Site}

/-! ### Operators behind an operand -/

/-- The current token, which is not the end of input, stands behind an expression. -/
structure State.Follows (file : String) (all : List Token) (first s : State)
    (left : Expr) : Prop extends first.Lays file all s [.expr left] where
  behind : left.loc.stop ≤ s.current.start

namespace State

theorem Lays.follows (h : first.Lays file all s [.expr left])
    (hnext : s.next.kind ≠ .eof) : first.Follows file all s.advanced left := by
  have hleft := h.stops _ (List.mem_singleton_self _)
  refine ⟨⟨h.step, ?_⟩, hleft.trans (h.top.apart h.more)⟩
  rw [advanced_current]
  exact hnext

namespace Follows

variable (h : first.Follows file all s left)

include h

/-- An expression that goes on to the current token. -/
theorem span (h' : s.Holds file all s' xs)
    (hloc : x.loc = left.loc.through (locationOf s' s'.current))
    (hparts : x.parts ⊆ .expr left :: xs) (horderly : x.Orderly all) :
    first.Holds file all s' [x] := by
  apply h.toHolds.extend h.behind h' hloc (le_refl _) _ horderly
  intro y hy
  rcases List.mem_cons.mp (hparts hy) with rfl | hy
  · exact Or.inl rfl
  · exact Or.inr ⟨hy, h'.stops y hy⟩

/-- An expression that ends where another one does. -/
theorem join {right : Expr} (h' : s.Lays file all s' (xs ++ [Site.expr right]))
    (hloc : x.loc = left.loc.through right.loc)
    (hparts : x.parts ⊆ Site.expr left :: xs ++ [Site.expr right])
    (hbefore : ∀ y ∈ xs, y.loc.stop ≤ right.loc.stop) (horderly : x.Orderly all) :
    first.Lays file all s' [x] := by
  refine ⟨?_, h'.more⟩
  have hright : Site.expr right ∈ xs ++ [Site.expr right] := by simp
  apply h.toHolds.extend h.behind h'.toHolds hloc (h'.stops _ hright) _ horderly
  intro y hy
  rcases List.mem_cons.mp (hparts hy) with rfl | hy
  · exact Or.inl rfl
  · refine Or.inr ⟨hy, ?_⟩
    rcases List.mem_append.mp hy with hxs | hlast
    · exact hbefore y hxs
    · rw [List.mem_singleton.mp hlast]
      exact le_refl _

end Follows

end State

theorem lays_binaryHere (hg : g.Lays file all) (h : first.Follows file all s left)
    (op : BinaryOp) :
    Leads True (g.binaryHere left op) s fun e s' => first.Lays file all s' [.expr e] := by
  unfold Grammar.binaryHere
  rw [leads_current_bind]
  apply leads_advance_bind
  apply (hg.expression _ h.top.advanced).bind
  intro right s' _ h'
  have hright : s.Lays file all s' ([] ++ [Site.expr right]) := ⟨h'.of_step h.top, h'.more⟩
  exact leads_pure (h.join hright rfl (by simp [Site.parts, Site.ofExpr]) (by simp)
    ⟨.nil, trivial⟩)

theorem lays_assignHere (hg : g.Lays file all) (h : first.Follows file all s left)
    (op : AssignOp) :
    Leads True (g.assignHere left op) s fun e s' => first.Lays file all s' [.expr e] := by
  unfold Grammar.assignHere
  apply (lays_operand hg h.top).bind
  intro value s' _ h'
  have hvalue : s.Lays file all s' ([] ++ [Site.expr value]) := h'
  exact leads_pure (h.join hvalue rfl (by simp [Site.parts, Site.ofExpr]) (by simp)
    ⟨.nil, trivial⟩)

theorem lays_rangeHere (hg : g.Lays file all) (h : first.Follows file all s left) :
    Leads True (g.rangeHere left) s fun e s' => first.Lays file all s' [.expr e] := by
  unfold Grammar.rangeHere
  apply leads_advance_bind
  apply (hg.expression _ h.top.advanced).bind
  intro stop s' _ h'
  have hstop : s.Lays file all s' ([] ++ [Site.expr stop]) := ⟨h'.of_step h.top, h'.more⟩
  exact leads_pure (h.join hstop rfl (by simp [Site.parts, Site.ofExpr]) (by simp)
    ⟨.nil, trivial⟩)

theorem lays_ternaryHere (hg : g.Lays file all) (h : first.Follows file all s left) :
    Leads True (g.ternaryHere left) s fun e s' => first.Lays file all s' [.expr e] := by
  unfold Grammar.ternaryHere
  apply (lays_operand hg h.top).bind
  intro consequence s1 _ h1
  apply leads_expect_bind
  intro _
  apply (lays_operand hg h1.top.advanced).bind
  intro alternative s2 _ h2
  have hboth : s.Lays file all s2 ([Site.expr consequence] ++ [Site.expr alternative]) :=
    ⟨h1.step.add h2.toHolds, h2.more⟩
  refine leads_pure (h.join hboth rfl (by simp [Site.parts, Site.ofExpr]) ?_
    ⟨.nil, trivial⟩)
  intro y hy
  have halternative := List.mem_singleton_self (Site.expr alternative)
  calc y.loc.stop
    _ ≤ s1.current.stop := h1.stops y hy
    _ ≤ s1.advanced.current.start := h1.top.apart h1.more
    _ ≤ alternative.loc.start := h2.starts _ halternative
    _ ≤ alternative.loc.stop := (h2.laid _ halternative).here.1.proper.nonempty.le

/-- The one parameter of an arrow function is a name, which stands where the operand
does. -/
theorem lays_arrowHere (hg : g.Lays file all) (h : first.Follows file all s left) :
    Leads True (g.arrowHere left) s fun e s' => first.Lays file all s' [.expr e] := by
  unfold Grammar.arrowHere
  split
  · next param =>
    have hleft := List.mem_singleton_self (Site.expr (.name param))
    have hproper : param.loc.Proper file := (h.laid _ hleft).here.1.proper
    have hstarts : first.current.start ≤ param.loc.start := h.starts _ hleft
    have hstops : param.loc.stop ≤ s.current.stop := h.stops _ hleft
    have hparam : first.Holds file all s [.name param] := by
      apply h.close (x := .name param) hproper hstarts hstops
      · simp [Site.parts]
      · exact ⟨.nil, trivial⟩
    unfold Grammar.arrowBody
    apply (lays_operand hg h.top).bind
    intro body s' _ h'
    have hbody := List.mem_singleton_self (Site.expr body)
    refine leads_pure ⟨?_, h'.more⟩
    apply hparam.extend h.behind h'.toHolds rfl (h'.stops _ hbody)
    · intro y hy
      rcases List.mem_cons.mp hy with rfl | hy
      · exact Or.inl rfl
      · obtain rfl := List.mem_singleton.mp hy
        exact Or.inr ⟨hy, le_refl _⟩
    · exact ⟨.nil, trivial⟩
  · exact leads_fail

theorem lays_callHere (hg : g.Lays file all) (h : first.Follows file all s left) :
    Leads True (g.callHere left) s fun e s' => first.Lays file all s' [.expr e] := by
  unfold Grammar.callHere
  apply (lays_expressionList hg h.top (by decide)).bind
  intro args s' _ h'
  rw [leads_spanFrom_bind]
  exact leads_pure ⟨h.span h'.toHolds rfl (by simp [Site.parts, Site.ofExpr])
    ⟨.nil, trivial⟩, h'.more⟩

theorem lays_sliceStop (hg : g.Lays file all) (hs : s.Over file all)
    (hmore : s.current.kind ≠ .eof) :
    Leads True g.sliceStop s fun stop? s' =>
      s.Lays file all s' (stop?.toList.map .expr) := by
  unfold Grammar.sliceStop
  apply (lays_operandUnless hg hs hmore _).bind
  intro stop? s' _ h
  exact leads_expect_bind fun hclose => leads_pure (h.lays_step hclose (by decide))

theorem lays_indexHere (hg : g.Lays file all) (h : first.Follows file all s left) :
    Leads True (g.indexHere left) s fun e s' => first.Lays file all s' [.expr e] := by
  have hslice : ∀ (start? : Option Expr) {s' : State},
      s.Holds file all s' (start?.toList.map .expr) → s'.next.kind = .colon →
      Leads True (do
        advance
        let stop ← g.sliceStop
        return .slice left start? stop (← spanFrom left.loc)) s' fun e s' =>
          first.Lays file all s' [.expr e] := by
    intro start? s' h' hcolon
    have hstart := h'.lays_step hcolon (by decide)
    apply leads_advance_bind
    apply (lays_sliceStop hg hstart.top hstart.more).bind
    intro stop? s'' _ hstop
    rw [leads_spanFrom_bind]
    refine leads_pure ⟨?_, hstop.more⟩
    apply h.span (hstart.add hstop.toHolds) rfl
    · simp [Site.parts, Site.ofExpr]
    · exact ⟨.nil, trivial⟩
  unfold Grammar.indexHere
  rw [leads_nextIs_bind]
  split
  · next hcolon =>
    exact hslice none h.top.holds (by simpa using hcolon)
  · apply (lays_operand hg h.top).bind
    intro index s1 _ h1
    rw [leads_nextIs_bind]
    split
    · next hcolon =>
      exact hslice (some index) h1.toHolds (by simpa using hcolon)
    · apply leads_expect_bind
      intro hclose
      have hindex := h1.lays_step hclose (by decide)
      rw [leads_spanFrom_bind]
      exact leads_pure ⟨h.span hindex.toHolds rfl (by simp [Site.parts, Site.ofExpr])
        ⟨.nil, trivial⟩, hindex.more⟩

theorem lays_memberHere (h : first.Follows file all s left) :
    Leads True (Grammar.memberHere left) s fun e s' =>
      first.Lays file all s' [.expr e] := by
  unfold Grammar.memberHere
  rw [leads_nextKind_bind]
  split
  · next hname =>
    apply leads_advance_bind
    rw [leads_nameHere_bind]
    refine leads_pure ⟨?_, ?_⟩
    · exact h.span h.top.holds.step.name rfl (by simp [Site.parts, Site.ofExpr])
        ⟨.nil, trivial⟩
    · rw [advanced_current]
      intro heof
      rw [heof] at hname
      revert hname
      decide
  · exact leads_failAtNext

theorem lays_stepHere (h : first.Follows file all s left) (op : StepOp) :
    Leads True (Grammar.stepHere left op) s fun e s' => first.Lays file all s' [.expr e] := by
  unfold Grammar.stepHere
  rw [leads_spanFrom_bind]
  exact leads_pure ⟨h.span h.top.holds rfl (by simp [Site.parts, Site.ofExpr])
    ⟨.nil, trivial⟩, h.more⟩

theorem lays_operatorHere (hg : g.Lays file all) (h : first.Follows file all s left) :
    Leads True (g.operatorHere left) s fun e s' => first.Lays file all s' [.expr e] := by
  unfold Grammar.operatorHere
  rw [leads_current_bind]
  dsimp only
  split
  · exact lays_binaryHere hg h _
  · exact lays_assignHere hg h _
  · exact lays_rangeHere hg h
  · exact lays_ternaryHere hg h
  · exact lays_arrowHere hg h
  · exact lays_callHere hg h
  · exact lays_indexHere hg h
  · exact lays_memberHere h
  · exact lays_stepHere h _
  · exact lays_stepHere h _
  · exact leads_pure h.toLays

/-! ### The grammar -/

theorem lays_expressionHere (hg : g.Lays file all) (hs : s.Over file all)
    (precedence : Precedence) :
    Leads True (g.expressionHere precedence) s fun e s' => s.Lays file all s' [.expr e] := by
  by_cases heof : s.current.kind = .eof
  · exact leads_expressionHere_eof heof precedence
  rw [Grammar.expressionHere_eq]
  apply (lays_operandHere hg hs heof).bind
  intro operand s1 _ h1
  apply leads_repeated_of (I := fun e s' => s.Lays file all s' [.expr e]) _ h1
  intro left s' h
  unfold Grammar.operatorPass
  rw [leads_nextKind_bind]
  split
  · next hbinds =>
    -- The end of input is on the lowest rung, so it does not get here.
    have hnext : s'.next.kind ≠ .eof := by
      intro heof
      rw [heof] at hbinds
      exact absurd hbinds.2 (Nat.not_lt_zero _)
    apply leads_advance_bind
    apply (lays_operatorHere hg (h.follows hnext)).bind
    intro e s'' _ h'
    exact leads_pure h'
  · exact leads_pure h

theorem lays_statementBody (hg : g.Lays file all) (hs : s.Over file all)
    (hmore : s.current.kind ≠ .eof) :
    Leads True g.statementBody s fun st s' => s.Lays file all s' [.stmt st] := by
  unfold Grammar.statementBody
  rw [leads_current_bind]
  split
  · exact lays_binding hg hs false
  · exact lays_binding hg hs true
  · exact lays_returning hg hs hmore
  · exact lays_inclusion hs
  · apply (lays_attempt hg hs).bind
    intro t s' _ h
    exact leads_pure ⟨h.wrap rfl rfl ⟨.nil, trivial⟩, h.more⟩
  · exact lays_structDeclaration hs
  · exact lays_enumDeclaration hs
  · rw [leads_here_bind]
    exact leads_pure ⟨.leaf hs rfl rfl ⟨.nil, trivial⟩, hmore⟩
  · rw [leads_here_bind]
    exact leads_pure ⟨.leaf hs rfl rfl ⟨.nil, trivial⟩, hmore⟩
  · exact State.Forward.refl s
  · next hdefine =>
    rw [leads_nextIs_bind]
    split
    · exact lays_expressionStatement hg hs
    · exact lays_definition hg hs hdefine
  · exact lays_expressionStatement hg hs

theorem lays_statementHere (hg : g.Lays file all) (hs : s.Over file all)
    (hmore : s.current.kind ≠ .eof) :
    Leads True g.statementHere s fun st s' => s.Lays file all s' [.stmt st] := by
  unfold Grammar.statementHere
  apply (lays_statementBody hg hs hmore).bind
  intro st s' _ h
  refine leads_nextIs (fun hsemicolon => ?_) ?_
  · exact leads_advance_bind (leads_pure (h.lays_step hsemicolon (by decide)))
  · exact leads_pure h

/-- A statement that fails leaves the file alone. -/
theorem file_of_failed {n : Nat} (hrun : (grammar n).statement s = .failed s') :
    s'.file = s.file := by
  have htells := (grammar_tells n).statement s
  rw [hrun] at htells
  obtain ⟨_, hrecords, _⟩ := htells
  exact hrecords.file

/-- Every grammar places its results. -/
theorem lays_grammar (n : Nat) : (grammar n).Lays file all := by
  induction n with
  | zero =>
    exact ⟨fun _ {_} _ => trivial, fun _ => trivial, file_of_failed, fun _ => trivial,
      fun _ => trivial⟩
  | succ n ih =>
    refine ⟨fun precedence {s} hs => lays_expressionHere ih hs precedence, fun {s} hs => ?_,
      file_of_failed, fun {s} hs => lays_branchHere ih hs, fun {s} hs => lays_typeHere ih hs⟩
    by_cases heof : s.current.kind = .eof
    · have hexpression := leads_expression_eof (n := n) heof .lowest (R := fun _ _ => False)
      exact leads_statementHere_eof heof (hexpression.imp fun _ => trivial)
    · exact lays_statementHere ih hs heof

/-! ### Programs -/

theorem lays_program (hg : g.Lays file all) (hs : s.Over file all) :
    Leads True (program g) s fun p _ => (Site.program p).Laid file all := by
  have hpass : ∀ statements s', s.Lists file all s' statements →
      Leads True (g.programPass statements) s' (Pass.Keeps
        (fun statements s' => s.Lists file all s' statements)
        fun statements s' => s.Holds file all s' (statements.map .stmt) ∧
          statements.Pairwise fun st st' => st.loc.stop ≤ st'.loc.start) := by
    intro statements s' h
    unfold Grammar.programPass
    rw [leads_currentIs_bind]
    split
    · exact leads_pure h.reverse
    · exact lists_statement hg h
  rw [program_eq, leads_here_bind]
  apply (leads_repeated_of hpass hs.lists).bind
  intro statements s' _ ⟨h, hordered⟩
  rw [leads_spanFrom_bind]
  apply leads_pure
  have hprogram : s.Holds file all s' [.program _] :=
    h.span (x := .program ⟨statements, _⟩) rfl (by simp [Site.parts]) ⟨hordered, trivial⟩
  exact hprogram.laid _ (List.mem_singleton_self _)

/-- In front of a text stand its tokens.  If it has none, then the end of input stands
there twice. -/
theorem tokens_startOf (file source : String) :
    ∃ front last, tokenize source = front ++ [last] ∧ last.kind = .eof ∧
      (startOf file source).tokens =
        if front = [] then [last, last] else tokenize source := by
  obtain ⟨front, last, htokens, hlast, -⟩ := endsOnce_tokenize source
  refine ⟨front, last, htokens, hlast, ?_⟩
  rw [startOf, htokens, tokens_initial]

/-- In front of a text the state stands over all its tokens. -/
theorem over_startOf (file source : String) :
    (startOf file source).Over file (tokenize source) := by
  obtain ⟨hplaced, hordered⟩ := tokenize_ordered source
  have hended : (startOf file source).Ended := ended_initial (endsOnce_tokenize source)
  obtain ⟨front, last, htokens, hlast, hstate⟩ := tokens_startOf file source
  have hmem : ∀ t, t ∈ (startOf file source).tokens ↔ t ∈ tokenize source := by
    intro t
    rw [hstate]
    split
    · next hfront => simp [htokens, hfront]
    · exact Iff.rfl
  have hbefore : ∀ t ∈ tokenize source, ∀ t' ∈ tokenize source, t.stop ≤ t'.start →
      t.Before t' := by
    intro t ht t' ht' hle
    exact ⟨(hplaced t ht).nonempty.le.trans hle, hle.trans (hplaced t' ht').nonempty.le,
      fun _ => hle⟩
  refine ⟨rfl, hended, fun t ht => hplaced t ((hmem t).mp ht), ?_,
    fun t ht => (hmem t).mp ht, fun t ht _ _ => (hmem t).mpr ht⟩
  rw [hstate]
  split
  · simp only [List.pairwise_cons, List.mem_singleton, forall_eq, List.not_mem_nil,
      false_imp_iff, implies_true, List.Pairwise.nil, and_true]
    exact ⟨le_refl _, le_refl _, fun hne => absurd hlast hne⟩
  · exact hordered.imp_of_mem fun ht ht' hle => hbefore _ ht _ ht' hle

/-- The sites of an accepted text are laid out in it. -/
theorem laid_of_parse {source : String} {p : Program}
    (h : parse file source = .ok p) : (Site.program p).Laid file (tokenize source) := by
  have hlays := lays_program (lays_grammar (boundOf source)) (over_startOf file source)
  obtain ⟨p', s, hrun⟩ := exists_program file source
  rw [parse_of_program hrun] at h
  unfold Leads at hlays
  rw [hrun] at hlays
  split at h
  · obtain rfl := Except.ok.inj h
    exact hlays.2
  · cases h

end Parser

/-- Spans nest.  Every site of an accepted text stands in its file and takes up room there,
what is right inside it stands within it, and statements follow one another. -/
theorem spans_nest {file source : String} {p : Program} (h : parse file source = .ok p) :
    Site.Every (Site.Nests file) (.program p) :=
  (Parser.laid_of_parse h).mono fun _ hx => hx.1

/-- A function with an expression in parentheses, and a string of two lines. -/
def groupAndString : String :=
  "define f(a: int, b) \x7b return (a + b) * 2; \x7d\nlet s = `x\n y`;"

theorem spans_nest_groupAndString : ∃ p, parse "a.vic" groupAndString = .ok p ∧
    p.statements.length = 2 ∧ Site.Every (Site.Nests "a.vic") (.program p) := by
  have hchecks : (match parse "a.vic" groupAndString with
      | .ok p => p.statements.length == 2
      | .error _ => false) = true := by
    decide +kernel
  split at hchecks
  · next p hparse => exact ⟨p, hparse, by simpa using hchecks, spans_nest hparse⟩
  · cases hchecks

end Script
