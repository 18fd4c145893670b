import Script.Proofs.Syntax.TakenExpressions

/-!
# No word gets lost

Every production of the grammar takes the words of its result and no others, but for the
defaults of a `switch` that another one overwrites.  So the words of an accepted text are
those of its tree, unless a `switch` has two defaults.
-/

namespace Script

namespace Parser

open State

variable {file : String} {all : List Token} {g : Grammar} {s s' : State}

/-! ### The grammar -/

theorem takes_statementBody (hall : ∀ t ∈ all, t.Proper) (hg : g.Takes file all)
    (hs : s.Over file all) :
    Leads True g.statementBody s fun st s' => s.Takes file all s' st.words := by
  unfold Grammar.statementBody
  rw [leads_current_bind]
  split
  · next hlet => exact takes_binding hg hs (Or.inl hlet) false
  · next hconst => exact takes_binding hg hs (Or.inr hconst) true
  · next hreturn => exact takes_returning hg hs hreturn
  · next hinclude => exact takes_inclusion hs hinclude
  · next htry => exact (takes_attempt hg hs htry).bind fun t s' _ h => leads_pure h
  · next hstruct => exact takes_structDeclaration hs hstruct
  · next henum => exact takes_enumDeclaration hall hs henum
  · next hbreak =>
    rw [leads_here_bind]
    exact leads_pure (hs.takesPlain hbreak rfl)
  · next hcontinue =>
    rw [leads_here_bind]
    exact leads_pure (hs.takesPlain hcontinue rfl)
  · exact State.Forward.refl s
  · next hdefine =>
    rw [leads_nextIs_bind]
    split
    · exact takes_expressionStatement hg hs
    · exact takes_definition hg hs hdefine
  · exact takes_expressionStatement hg hs

theorem takes_statementHere (hall : ∀ t ∈ all, t.Proper) (hg : g.Takes file all)
    (hs : s.Over file all) :
    Leads True g.statementHere s fun st s' => s.Takes file all s' st.words := by
  unfold Grammar.statementHere
  refine (takes_statementBody hall hg hs).bind fun st s' _ h => ?_
  refine leads_nextIs (fun hsemicolon => ?_) ?_
  · exact leads_advance_bind (leads_pure (h.past hsemicolon rfl))
  · exact leads_pure h

/-- At a lone semicolon there is no statement. -/
theorem statement_semicolon {n : Nat} (hrun : (grammar n).statement s = .failed s')
    (hkind : s.current.kind = .semicolon) : s' = s := by
  cases n with
  | zero => cases hrun
  | succ n =>
    have hfails : (grammar n).statementHere s = .failed s := by
      rw [Grammar.statementHere_eq, hkind]
      rfl
    exact Outcome.failed.inj (hrun.symm.trans hfails)

theorem recorded_of_failed {n : Nat} (hrun : (grammar n).statement s = .failed s') :
    s.errors.size < s'.errors.size ∨ s' = s ∧ s.current.kind = .semicolon := by
  by_cases hkind : s.current.kind = .semicolon
  · exact Or.inr ⟨statement_semicolon hrun hkind, hkind⟩
  · have htells := (grammar_tells n).statement s
    rw [hrun] at htells
    obtain ⟨reports, hrecords, hsilent⟩ := htells
    have hreports := List.length_pos_iff.mpr (mt hsilent.mp hkind)
    have hsize := congrArg List.length hrecords.errors
    rw [List.length_append, List.length_map, Array.length_toList, Array.length_toList]
      at hsize
    exact Or.inl (by omega)

/-- Every grammar takes the words of its results. -/
theorem takes_grammar (hall : ∀ t ∈ all, t.Proper) (n : Nat) :
    (grammar n).Takes file all := by
  induction n with
  | zero =>
    exact ⟨lays_grammar 0, fun _ {_} _ => trivial, fun _ => trivial, recorded_of_failed,
      fun _ _ => trivial, fun _ => trivial⟩
  | succ n ih =>
    exact ⟨lays_grammar (n + 1),
      fun precedence {s} hs => takes_expressionHere hall ih hs precedence,
      fun {s} hs => takes_statementHere hall ih hs, recorded_of_failed,
      fun {s} hs hif => takes_branchHere ih hs hif, fun {s} hs => takes_typeHere hall ih hs⟩

/-! ### Programs -/

theorem reads_program (hg : g.Takes file all) (hs : s.Over file all) :
    Leads True (program g) s fun p s' =>
      s.Reads file all s' p.words ∧ s'.current.kind = .eof := by
  have hpass : ∀ statements s', s.Reads file all s' (statements.map Stmt.words).sum →
      Leads True (g.programPass statements) s' (Pass.Keeps
        (fun statements s' => s.Reads file all s' (statements.map Stmt.words).sum)
        fun statements s' => s.Reads file all s' (wordsOfStmts statements) ∧
          s'.current.kind = .eof) := by
    intro statements s' h
    unfold Grammar.programPass
    rw [leads_currentIs_bind]
    split
    · next heof =>
      rw [beq_iff_eq] at heof
      refine leads_pure ⟨h.congr ?_, heof⟩
      rw [wordsOfStmts_eq_sum, sum_map_reverse]
    · exact reads_statement hg h
  rw [program_eq, leads_here_bind]
  refine (leads_repeated_of hpass hs.reads).bind fun statements s' _ h => ?_
  rw [leads_spanFrom_bind]
  exact leads_pure h

theorem words_startOf (file source : String) :
    (startOf file source).words = wordsOfTokens (tokenize source) := by
  obtain ⟨front, last, htokens, hlast, hstate⟩ := tokens_startOf file source
  have hnone : last.words = 0 := Token.words_eq_zero (by rw [hlast]; rfl)
  rw [State.words, hstate]
  split
  · next hfront => simp [htokens, hfront, wordsOfTokens, hnone]
  · rfl

/-- The words of an accepted text are those of its tree and of what got lost. -/
theorem words_of_parse {source : String} {p : Program} (h : parse file source = .ok p) :
    ∃ lost, wordsOfTokens (tokenize source) = p.words + wordsOfLost lost ∧
      (lost ≠ [] → .default ∈ p.words) := by
  have hreads := reads_program (takes_grammar (proper_tokenize source) (boundOf source))
    (over_startOf file source)
  obtain ⟨p', s, hrun⟩ := exists_program file source
  rw [parse_of_program hrun] at h
  unfold Leads at hreads
  rw [hrun] at hreads
  obtain ⟨-, hreads, heof⟩ := hreads
  split at h
  · next hempty =>
    obtain rfl := Except.ok.inj h
    obtain ⟨lost, hwords, hleft⟩ := hreads.words (by
      rw [Array.isEmpty_iff.mp hempty]
      rfl)
    refine ⟨lost, ?_, hleft⟩
    rw [← words_startOf file, hwords, hreads.top.words_eq_zero heof, add_zero]
  · cases h

end Parser

open Script.Parser

/-! ### Defaults -/

/-- How often the word `default` stands among the tokens. -/
def defaultsIn (tokens : List Token) : Nat :=
  tokens.countP fun t => t.kind = .defaultWord

theorem count_default_token (t : Token) :
    t.words.count .default = if t.kind = .defaultWord then 1 else 0 := by
  unfold Token.words
  cases t.kind <;> simp [Token.Kind.isWord, Token.Kind.isType]

theorem count_default_tokens (tokens : List Token) :
    (wordsOfTokens tokens).count .default = defaultsIn tokens := by
  induction tokens with
  | nil => rfl
  | cons t tokens ih =>
    rw [wordsOfTokens_cons, Multiset.count_add, ih, count_default_token, defaultsIn,
      defaultsIn, List.countP_cons, add_comm]
    simp

theorem length_le_count_lost (lost : List Block) :
    lost.length ≤ (wordsOfLost lost).count .default := by
  induction lost with
  | nil => exact Nat.zero_le _
  | cons b lost ih =>
    rw [wordsOfLost_cons, Multiset.count_add, Multiset.count_add,
      Multiset.count_singleton_self, List.length_cons]
    omega

/-- The parser keeps what it accepts, but for defaults.  The words of an accepted text are
those of its tree and of default blocks that are not in it; where one of them is missing
there is another one in the tree.  So nothing is lost exactly if all defaults of the text
are in the tree, and a text with at most one loses nothing. -/
theorem parsing_keeps_words {file source : String} {p : Program}
    (h : parse file source = .ok p) :
    (∃ lost : List Block, wordsOfTokens (tokenize source) = p.words + wordsOfLost lost ∧
      (lost ≠ [] → .default ∈ p.words)) ∧
    (wordsOfTokens (tokenize source) = p.words ↔
      defaultsIn (tokenize source) = p.words.count .default) ∧
    (defaultsIn (tokenize source) ≤ 1 → wordsOfTokens (tokenize source) = p.words) := by
  obtain ⟨lost, hwords, hleft⟩ := words_of_parse h
  have hcount : defaultsIn (tokenize source) =
      p.words.count .default + (wordsOfLost lost).count .default := by
    rw [← count_default_tokens, hwords, Multiset.count_add]
  have hlength := length_le_count_lost lost
  have hnothing : lost = [] → wordsOfTokens (tokenize source) = p.words := by
    rintro rfl
    rw [hwords, wordsOfLost, List.map_nil, List.sum_nil, add_zero]
  refine ⟨⟨lost, hwords, hleft⟩, ⟨fun hkept => ?_, fun hdefaults => ?_⟩, fun hone => ?_⟩
  · rw [← count_default_tokens, hkept]
  · exact hnothing (List.eq_nil_of_length_eq_zero (by omega))
  · refine hnothing (by_contra fun hlost => ?_)
    have hpos := Multiset.count_pos.mpr (hleft hlost)
    have hlost' := List.length_pos_iff.mpr hlost
    omega

/-- Parameters with and without a type, an enumeration, and a `switch` with a default. -/
def oneDefault : String :=
  "define f(a: map[int]any, b) \x7b switch (a) \x7b case 1 \x7b b \x7d " ++
  "default \x7b \"c\" \x7d \x7d \x7d enum E \x7b x = -3 \x7d"

theorem parsing_keeps_words_oneDefault : ∃ p, parse "a.vic" oneDefault = .ok p ∧
    p.statements.length = 2 ∧ wordsOfTokens (tokenize oneDefault) = p.words := by
  have hchecks : (match parse "a.vic" oneDefault with
      | .ok p => p.statements.length == 2 && decide (defaultsIn (tokenize oneDefault) ≤ 1)
      | .error _ => false) = true := by
    decide +kernel
  split at hchecks
  · next p hparse =>
    rw [Bool.and_eq_true, beq_iff_eq, decide_eq_true_eq] at hchecks
    exact ⟨p, hparse, hchecks.1, (parsing_keeps_words hparse).2.2 hchecks.2⟩
  · cases hchecks

/-- A `switch` with two defaults, which is accepted. -/
def twoDefaults : String :=
  "switch (x) \x7b default \x7b a \x7d default \x7b b \x7d \x7d"

/-- The name in the first default is lost. -/
theorem parsing_keeps_words_twoDefaults : ∃ p, parse "a.vic" twoDefaults = .ok p ∧
    .name "a" ∈ wordsOfTokens (tokenize twoDefaults) ∧ .name "a" ∉ p.words ∧
    (wordsOfTokens (tokenize twoDefaults)).filter (· ≠ .default) ≠
      p.words.filter (· ≠ .default) := by
  have hchecks : (match parse "a.vic" twoDefaults with
      | .ok p => decide (.name "a" ∈ wordsOfTokens (tokenize twoDefaults) ∧
          .name "a" ∉ p.words)
      | .error _ => false) = true := by
    decide +kernel
  split at hchecks
  · next p hparse =>
    obtain ⟨htext, htree⟩ := decide_eq_true_eq.mp hchecks
    refine ⟨p, hparse, htext, htree, fun hkept => htree ?_⟩
    have hmem : .name "a" ∈ p.words.filter (· ≠ .default) :=
      hkept ▸ Multiset.mem_filter.mpr ⟨htext, nofun⟩
    exact Multiset.mem_of_mem_filter hmem
  · cases hchecks

end Script
