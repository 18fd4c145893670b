import Script.Proofs.Syntax.AcceptedDeclarations
import Script.Proofs.Syntax.Taking

/-!
# What declarations take

Types, blocks, functions and declarations take the words that they are made of.
-/

namespace Script

namespace Parser

open State

variable {α : Type} {file : String} {all : List Token} {g : Grammar} {s s' first : State}
  {ws : Multiset Word}

/-- The productions of a grammar take the words of their results, and a statement that
fails has recorded an error unless it stands at a lone semicolon. -/
structure Grammar.Takes (file : String) (all : List Token) (g : Grammar) : Prop where
  lays : g.Lays file all
  expression : ∀ precedence {s : State}, s.Over file all →
    Leads True (g.expression precedence) s fun e s' => s.Takes file all s' e.words
  statement : ∀ {s : State}, s.Over file all →
    Leads True g.statement s fun st s' => s.Takes file all s' st.words
  failed : ∀ {s s' : State}, g.statement s = .failed s' →
    s.errors.size < s'.errors.size ∨ s' = s ∧ s.current.kind = .semicolon
  branch : ∀ {s : State}, s.Over file all → s.current.kind = .ifWord →
    Leads True g.branch s fun e s' => s.Takes file all s' e.words
  type : ∀ {s : State}, s.Over file all →
    Leads True g.type s fun t s' => s.Takes file all s' t.words

/-! ### Lists -/

/-- A list takes the words of its items. -/
theorem takes_commaList {item : Parser α} {words : α → Multiset Word}
    (hitem : ∀ {s : State}, s.Over file all →
      Leads True item s fun a s' => s.advanced.Takes file all s' (words a))
    (hs : s.Over file all) :
    Leads True (commaList item) s fun items s' =>
      s.advanced.Takes file all s' (items.map words).sum := by
  refine leads_commaList
    (I := fun items s' => s.advanced.Takes file all s' (items.map words).sum)
    (J := fun items s' => s.advanced.Takes file all s' (items.map words).sum) ?_ ?_ ?_
    hs.takesNone
  · refine fun items s' h => (hitem h.top).mono fun a s'' _ h' => (h.add h').congr ?_
    rw [List.map_cons, List.sum_cons, add_comm]
  · exact fun items s' h hcomma => h.past hcomma rfl
  · exact fun items s' h => h.congr (sum_map_reverse words items).symm

/-- Items in braces take the same, up to the closing one. -/
theorem takes_braceList {item : Parser α} {words : α → Multiset Word}
    (hitem : ∀ {s : State}, s.Over file all →
      Leads True item s fun a s' => s.advanced.Takes file all s' (words a))
    (hs : s.Over file all) :
    Leads True (Grammar.braceList item) s fun items s' =>
      s.advanced.Takes file all s' (items.map words).sum := by
  have hpass : ∀ (items : List α) s', s.advanced.Takes file all s' (items.map words).sum →
      Leads True (bracePass item items) s' (Pass.Keeps
        (fun items s' => s.advanced.Takes file all s' (items.map words).sum)
        fun items s' => s.advanced.Takes file all s' (items.map words).sum ∧
          s'.next.kind = .rbrace) := by
    intro items s' h
    unfold bracePass
    refine leads_nextIs (fun hclose => ?_) ?_
    · exact leads_pure ⟨h.congr (sum_map_reverse words items).symm, hclose⟩
    · refine (hitem h.top).bind fun a s'' _ h' => ?_
      have hitems : s.advanced.Takes file all s'' ((a :: items).map words).sum := by
        refine (h.add h').congr ?_
        rw [List.map_cons, List.sum_cons, add_comm]
      rw [leads_nextIs_bind]
      split
      · exact leads_pure hitems
      · exact leads_expect_bind fun hcomma => leads_pure (hitems.past hcomma rfl)
  rw [braceList_eq]
  refine (leads_repeated_of hpass hs.takesNone).bind fun items s' _ ⟨h, hclose⟩ => ?_
  exact leads_advance_bind (leads_pure (h.past hclose rfl))

/-! ### Types -/

theorem takes_typeHere (hall : ∀ t ∈ all, t.Proper) (hg : g.Takes file all)
    (hs : s.Over file all) :
    Leads True g.typeHere s fun t s' => s.Takes file all s' t.words := by
  unfold Grammar.typeHere
  rw [leads_here_bind, leads_current_bind]
  split
  · next hbracket =>
    refine leads_expect_bind fun hclose => leads_advance_bind ?_
    have h := (hs.takesPlain hbracket rfl).past hclose rfl
    refine (hg.type h.top.advanced).bind fun element s' _ h' => ?_
    rw [leads_spanFrom_bind]
    exact leads_pure (h.only h')
  · rw [leads_nextKind_bind]
    split
    · next hmap =>
      refine leads_advance_bind (leads_advance_bind ?_)
      have hkind : s.current.kind.isType = true := by
        rw [hmap.1]
        rfl
      have htext := (hall _ (hs.known _ List.mem_cons_self)).typeText hkind
      rw [hmap.1] at htext
      have h := (hs.takesName (Or.inr hkind)).past hmap.2 rfl
      refine (hg.type h.top.advanced).bind fun key s1 _ h1 => ?_
      refine leads_expect_bind fun hclose => leads_advance_bind ?_
      have h' := (h.add h1).past hclose rfl
      refine (hg.type h'.top.advanced).bind fun value s2 _ h2 => ?_
      rw [leads_spanFrom_bind]
      refine leads_pure ((h'.add h2).congr ?_)
      rw [htext]
      rfl
    · split
      · next hname => exact leads_pure (hs.takesName hname)
      · exact leads_unexpected

/-- A type behind a colon, if there is one, and where it starts. -/
theorem takes_typeMark? (hg : g.Takes file all) (hs : s.Over file all) :
    Leads True g.typeMark? s fun type? s' =>
      s.advanced.Takes file all s' (wordsOfType? type?) ∧
        ∀ t ∈ type?, s.current.start < (Site.type t).loc.start := by
  unfold Grammar.typeMark?
  refine leads_nextIs (fun hcolon => ?_) ?_
  · refine leads_advance_bind (leads_advance_bind ?_)
    have h := hs.takesNone.past hcolon rfl
    have hmore : s.current.kind ≠ .eof := fun heof => by
      rw [hs.ended.next_eof heof] at hcolon
      cases hcolon
    have hstart := (hs.start_lt hmore).trans_le h.top.before_next.start
    have htype := (hg.type h.top.advanced).both (hg.lays.type h.top.advanced)
    refine htype.bind fun t s' _ ⟨h', hlays, _⟩ => leads_pure ⟨?_, ?_⟩
    · exact h.only h'
    · intro t' ht
      obtain rfl := Option.some.inj ht
      have hbehind := hlays.starts _ (List.mem_singleton_self _)
      rw [advanced_current] at hbehind
      exact hstart.trans_le hbehind
  · exact leads_pure ⟨hs.takesNone, nofun⟩

theorem takes_nextType (hg : g.Takes file all) (hs : s.Over file all) :
    Leads True g.nextType s fun t s' => s.advanced.Takes file all s' t.words := by
  unfold Grammar.nextType
  exact leads_advance_bind (hg.type hs.advanced)

/-! ### Functions -/

/-- A parameter as it is settled if another one has a type. -/
def settled (p : Name × Option TypeExpr) : TypedName :=
  { name := p.1, type := p.2.getD (.named "any" p.1.loc) }

/-- A type stands behind its name, so it is not taken for a missing one. -/
theorem words_settled {name : Name} {type? : Option TypeExpr}
    (hbehind : ∀ t ∈ type?, name.loc.start < (Site.type t).loc.start) :
    (settled (name, type?)).words = name.words + wordsOfType? type? := by
  unfold settled TypedName.words
  cases type? with
  | none =>
    rw [Option.getD_none, if_pos rfl]
    rfl
  | some t =>
    rw [Option.getD_some, if_neg]
    · rfl
    · intro (heq : t = .named "any" name.loc)
      have hstart := hbehind t rfl
      rw [heq] at hstart
      exact lt_irrefl _ hstart

theorem words_settleParams (params : List (Name × Option TypeExpr)) :
    (Grammar.settleParams params).words =
      (params.map fun p => (settled p).words).sum := by
  unfold Grammar.settleParams
  split
  · rw [Params.words, List.map_map]
    rfl
  · next hplain =>
    have hnames : ∀ p ∈ params, p.1.words = (settled p).words := by
      rintro ⟨name, type?⟩ hp
      cases type? with
      | none =>
        rw [words_settled (by simp)]
        exact (add_zero _).symm
      | some t => exact absurd (List.any_eq_true.mpr ⟨_, hp, rfl⟩) hplain
    rw [Params.words, List.map_map]
    exact congrArg List.sum (List.map_congr_left hnames)

theorem takes_parameter (hg : g.Takes file all) (hs : s.Over file all) :
    Leads True g.parameter s fun p s' => s.advanced.Takes file all s' (settled p).words := by
  unfold Grammar.parameter
  refine leads_expect_bind fun hident => ?_
  rw [leads_nameHere_bind]
  have h := hs.takesNone.onlyName (Or.inl hident)
  refine (takes_typeMark? hg h.top).bind fun type? s' _ ⟨h', hbehind⟩ => ?_
  refine leads_pure ((h.add h').congr ?_)
  rw [words_settled]
  · rfl
  · exact hbehind

theorem takes_parameters (hg : g.Takes file all) (hs : s.Over file all) :
    Leads True g.parameters s fun params s' =>
      s.advanced.Takes file all s' params.words := by
  unfold Grammar.parameters
  refine leads_nextIs (fun hclose => ?_) ?_
  · exact leads_advance_bind (leads_pure (hs.takesNone.past hclose rfl))
  · refine (takes_commaList (takes_parameter hg) hs).bind fun params s' _ h => ?_
    refine leads_expect_bind fun hclose => leads_pure ((h.past hclose rfl).congr ?_)
    exact (words_settleParams params).symm

theorem takes_returnTypes (hg : g.Takes file all) (hs : s.Over file all) :
    Leads True g.returnTypes s fun types s' =>
      s.advanced.Takes file all s' (types.map TypeExpr.words).sum := by
  unfold Grammar.returnTypes
  refine leads_nextIs (fun harrow => ?_) ?_
  · refine leads_advance_bind ?_
    have h := hs.takesNone.past harrow rfl
    refine leads_nextIs (fun hopen => ?_) ?_
    · refine leads_advance_bind ?_
      have h' := h.past hopen rfl
      refine (takes_commaList (takes_nextType hg) h'.top).bind fun types s1 _ h1 => ?_
      refine leads_expect_bind fun hclose => leads_pure ?_
      exact (h'.only h1).past hclose rfl
    · refine (takes_nextType hg h.top).bind fun t s1 _ h1 => ?_
      refine leads_pure ((h.only h1).congr ?_)
      simp
  · exact leads_pure hs.takesNone

/-! ### Statements -/

/-- A statement behind others, or nothing at a lone semicolon. -/
theorem reads_statement (hg : g.Takes file all) {statements : List Stmt}
    {Q : List Stmt → State → Prop}
    (h : first.Reads file all s' (statements.map Stmt.words).sum) :
    Leads True (do
      let statement ← optional g.statement
      advance
      return .again (statement.toList ++ statements)) s'
      (Pass.Keeps (fun statements s' =>
        first.Reads file all s' (statements.map Stmt.words).sum) Q) := by
  have hstatement : Leads True (optional g.statement) s' fun st? s'' =>
      first.Reads file all s''.advanced
        ((st?.toList ++ statements).map Stmt.words).sum := by
    refine leads_optional (hg.statement h.top) (fun st s'' h' => ?_)
      fun s'' hrun hforward => ?_
    · refine (h.add h').reads.congr ?_
      simp [add_comm]
    · rcases hg.failed hrun with hgrows | ⟨rfl, hsemicolon⟩
      · -- It has recorded why, and so nothing is left to be shown.
        have htop := h.top.forward hforward (hg.lays.failed hrun)
        exact h.of_recorded htop.advanced (by rwa [advanced_errors])
      · exact (h.takesPlain hsemicolon rfl).reads
  exact hstatement.bind fun st? s'' _ h' => leads_advance_bind (leads_pure h')

theorem takes_block (hg : g.Takes file all) (hs : s.Over file all)
    (hopen : s.current.kind = .lbrace) :
    Leads True g.block s fun b s' => s.Takes file all s' b.words := by
  have hloop : Leads True (repeated g.blockPass []) s.advanced fun statements s' =>
      s.Reads file all s' (statements.map Stmt.words).sum ∧
      s'.current.kind = .rbrace := by
    refine leads_repeated_of
      (I := fun statements s' => s.Reads file all s' (statements.map Stmt.words).sum)
      (fun statements s' h => ?_) (hs.takesPlain hopen rfl).reads
    unfold Grammar.blockPass
    rw [leads_current_bind]
    split
    · next hclose =>
      exact leads_pure ⟨h.congr (sum_map_reverse Stmt.words statements).symm, hclose⟩
    · exact leads_unexpected
    · exact reads_statement hg h
  rw [Grammar.block_eq, leads_here_bind]
  refine leads_advance_bind (hloop.bind fun statements s' _ ⟨h, hclose⟩ => ?_)
  rw [leads_spanFrom_bind]
  refine leads_pure ((h.takesPlain hclose rfl).congr ?_)
  exact (wordsOfStmts_eq_sum statements).symm

theorem takes_nextBlock (hg : g.Takes file all) (hs : s.Over file all) :
    Leads True g.nextBlock s fun b s' => s.advanced.Takes file all s' b.words := by
  unfold Grammar.nextBlock
  refine leads_expect_bind fun hopen => takes_block hg hs.advanced ?_
  rw [advanced_current, hopen]

/-- A function from its parameters on; its name stands in front of them. -/
theorem takes_functionRest (hg : g.Takes file all) (hs : s.Over file all)
    (name : Option String) (start : Location) :
    Leads True (g.functionRest name start) s fun f s' =>
      ∃ ws, s.advanced.Takes file all s' ws ∧ f.words = wordsOfName? name + ws ∧
        f.loc = start.through (locationOf s' s'.current) := by
  unfold Grammar.functionRest
  refine (takes_parameters hg hs).bind fun params s1 _ h1 => ?_
  refine (takes_returnTypes hg h1.top).bind fun types s2 _ h2 => ?_
  refine (takes_nextBlock hg h2.top).bind fun body s3 _ h3 => ?_
  rw [leads_spanFrom_bind]
  exact leads_pure ⟨_, (h1.add h2).add h3, rfl, rfl⟩

/-! ### Declarations -/

/-- A value that starts elsewhere is not what a definition declares. -/
theorem isDefinition_eq_false {e : Expr} {loc : Location}
    (hstart : e.loc.start ≠ loc.start) : e.isDefinition loc = false := by
  unfold Expr.isDefinition
  split
  · next f =>
    rw [decide_eq_false_iff_not]
    rintro rfl
    exact hstart rfl
  · rfl

theorem takes_operand (hg : g.Takes file all) (hs : s.Over file all) :
    Leads True g.operand s fun e s' => s.advanced.Takes file all s' e.words := by
  unfold Grammar.operand
  exact leads_advance_bind (hg.expression .lowest hs.advanced)

theorem takes_binding (hg : g.Takes file all) (hs : s.Over file all)
    (hword : s.current.kind = .letWord ∨ s.current.kind = .constWord) (constant : Bool) :
    Leads True (g.binding constant) s fun st s' => s.Takes file all s' st.words := by
  have hkind : s.current.kind.isWord = false ∧ s.current.kind ≠ .eof := by
    rcases hword with hlet | hconst
    · rw [hlet]
      decide
    · rw [hconst]
      decide
  unfold Grammar.binding
  rw [leads_here_bind]
  refine leads_expect_bind fun hident => ?_
  rw [leads_nameHere_bind]
  have h := (hs.takesPlain rfl hkind.1).onlyName (Or.inl hident)
  refine (takes_typeMark? hg h.top).bind fun type? s1 hforward ⟨h1, _⟩ => ?_
  refine leads_expect_bind fun hassign => ?_
  have h' := (h.add h1).past hassign rfl
  have hvalue := (takes_operand hg h'.top).both (lays_operand hg.lays h'.top)
  refine hvalue.bind fun value s2 _ ⟨h2, hlays⟩ => ?_
  rw [leads_spanFrom_bind]
  -- A definition is a value that starts where its statement does, which this one does not.
  have hbehind : s.current.start < value.loc.start := by
    calc s.current.start
      _ < s.advanced.current.start := hs.start_lt hkind.2
      _ ≤ s1.advanced.current.start :=
        (Over.before_forward (hforward.trans s1.forward_advanced) h.top).1
      _ ≤ value.loc.start := hlays.starts _ (List.mem_singleton_self _)
  refine leads_pure ((h'.add h2).congr ?_)
  rw [Stmt.words, isDefinition_eq_false, if_neg Bool.false_ne_true]
  · rfl
  · rw [Location.start_through]
    exact hbehind.ne'

theorem takes_definition (hg : g.Takes file all) (hs : s.Over file all)
    (hdefine : s.current.kind = .defineWord) :
    Leads True g.definition s fun st s' => s.Takes file all s' st.words := by
  unfold Grammar.definition
  rw [leads_here_bind]
  refine leads_expect_bind fun hident => ?_
  rw [leads_nameHere_bind]
  have h := (hs.takesPlain hdefine rfl).onlyName (Or.inl hident)
  refine leads_nextIs (fun hdot => ?_) ?_
  · refine leads_advance_bind (leads_expect_bind fun hmethod => ?_)
    rw [leads_current_bind]
    refine leads_expect_bind fun hopen => ?_
    have h' := ((h.past hdot rfl).name (Or.inl hmethod)).past hopen rfl
    refine (takes_functionRest hg h'.top _ _).bind fun f s' _ ⟨ws, hrest, hwords, _⟩ => ?_
    rw [leads_spanFrom_bind]
    refine leads_pure ((h'.add hrest).congr ?_)
    rw [Stmt.words, hwords, add_assoc]
    rfl
  · refine leads_expect_bind fun hopen => ?_
    have h' := h.past hopen rfl
    refine (takes_functionRest hg h'.top _ _).bind fun f s' _ ⟨ws, hrest, hwords, hloc⟩ => ?_
    rw [leads_spanFrom_bind]
    refine leads_pure ((h'.add hrest).congr ?_)
    have hdefinition : (Expr.function f).isDefinition
        ((locationOf s s.current).through (locationOf s' s'.current)) = true :=
      decide_eq_true hloc
    rw [Stmt.words, hdefinition, if_pos rfl, Expr.words, hwords, zero_add]
    exact (zero_add _).symm

theorem takes_returning (hg : g.Takes file all) (hs : s.Over file all)
    (hreturn : s.current.kind = .returnWord) :
    Leads True g.returning s fun st s' => s.Takes file all s' st.words := by
  have h := hs.takesPlain hreturn rfl
  unfold Grammar.returning
  rw [leads_here_bind, leads_nextKind_bind]
  split
  · exact leads_pure h
  · exact leads_pure h
  · exact leads_pure h
  · refine (takes_operand hg hs).bind fun value s' _ h' => ?_
    rw [leads_spanFrom_bind]
    exact leads_pure (h.only h')

theorem takes_catchParam {first : State} {ws : Multiset Word}
    (h : first.Takes file all s ws) :
    Leads True Grammar.catchParam s fun id? s' =>
      first.Takes file all s' (ws + (id?.map Name.words).getD 0) := by
  unfold Grammar.catchParam
  refine leads_nextIs (fun hopen => ?_) ?_
  · refine leads_advance_bind (leads_expect_bind fun hident => ?_)
    rw [leads_nameHere_bind]
    refine leads_expect_bind fun hclose => leads_pure ?_
    exact ((h.past hopen rfl).name (Or.inl hident)).past hclose rfl
  · exact leads_pure (h.congr (add_zero _).symm)

theorem takes_attempt (hg : g.Takes file all) (hs : s.Over file all)
    (htry : s.current.kind = .tryWord) :
    Leads True g.attempt s fun t s' => s.Takes file all s' t.words := by
  rw [Grammar.attempt_eq, leads_here_bind]
  refine (takes_nextBlock hg hs).bind fun body s1 _ h1 => ?_
  have h := (hs.takesPlain htry rfl).only h1
  refine leads_nextIs (fun hcatch => ?_) ?_
  · refine leads_advance_bind ?_
    refine (takes_catchParam (h.past hcatch rfl)).bind fun id? s2 _ h2 => ?_
    refine (takes_nextBlock hg h2.top).bind fun handler s3 _ h3 => ?_
    rw [leads_spanFrom_bind]
    exact leads_pure (h2.add h3)
  · rw [leads_spanFrom_bind]
    refine leads_pure (h.congr ?_)
    simp [Attempt.words, wordsOfBlock?]

theorem takes_nextString (hs : s.Over file all) :
    Leads True nextString s fun text s' => s.advanced.Takes file all s' {.text text} := by
  unfold nextString
  refine leads_expect_bind fun hstring => ?_
  rw [leads_current_bind]
  refine leads_pure (hs.takesNone.word.congr ?_)
  rw [zero_add, Token.words, advanced_current, hstring]

theorem takes_inclusion (hs : s.Over file all) (hinclude : s.current.kind = .includeWord) :
    Leads True inclusion s fun st s' => s.Takes file all s' st.words := by
  have h := hs.takesPlain hinclude rfl
  unfold inclusion
  rw [leads_here_bind]
  refine leads_nextIs (fun hopen => ?_) ?_
  · refine leads_advance_bind ?_
    have h' := h.past hopen rfl
    refine (takes_commaList takes_nextString h'.top).bind fun modules s1 _ h1 => ?_
    refine leads_expect_bind fun hclose => ?_
    rw [leads_spanFrom_bind]
    exact leads_pure ((h'.only h1).past hclose rfl)
  · refine (takes_nextString hs).bind fun module s1 _ h1 => ?_
    rw [leads_spanFrom_bind]
    refine leads_pure ((h.only h1).congr ?_)
    simp [Stmt.words]

/-! ### Structs and enumerations -/

/-- The names of the fields, up to the closing brace. -/
theorem reads_fields (h : first.Reads file all s ws) :
    Leads True (repeated fieldPass []) s fun fields s' =>
      first.Reads file all s' (ws + (fields.map Name.words).sum) ∧
        s'.current.kind = .rbrace := by
  refine leads_repeated_of
    (I := fun fields s' => first.Reads file all s' (ws + (fields.map Name.words).sum))
    (fun fields s' h => ?_) (h.congr (add_zero _).symm)
  unfold fieldPass
  rw [leads_current_bind]
  split
  · next hclose =>
    refine leads_pure ⟨h.congr ?_, hclose⟩
    rw [sum_map_reverse]
  · next hident =>
    rw [leads_nameHere_bind]
    refine leads_advance_bind (leads_pure (h.takes.reads.congr ?_))
    rw [Token.words_of_name (Or.inl hident), List.map_cons, List.sum_cons, Name.words]
    abel
  · next hcomma => exact leads_advance_bind (leads_pure (h.takesPlain hcomma rfl).reads)
  · next hsemicolon =>
    exact leads_advance_bind (leads_pure (h.takesPlain hsemicolon rfl).reads)
  · exact leads_unexpected
  · exact leads_unexpected

theorem takes_structDeclaration (hs : s.Over file all)
    (hstruct : s.current.kind = .structWord) :
    Leads True structDeclaration s fun st s' => s.Takes file all s' st.words := by
  rw [structDeclaration_eq, leads_here_bind]
  refine leads_expect_bind fun hident => ?_
  rw [leads_nameHere_bind]
  refine leads_expect_bind fun hopen => leads_advance_bind ?_
  have h := ((hs.takesPlain hstruct rfl).onlyName (Or.inl hident)).past hopen rfl
  refine (reads_fields h.reads).bind fun fields s' _ ⟨h', hclose⟩ => ?_
  rw [leads_spanFrom_bind]
  exact leads_pure (h'.takesPlain hclose rfl)

theorem takes_integerHere (hall : ∀ t ∈ all, t.Proper) (hs : s.Over file all)
    (hint : s.current.kind = .int) :
    Leads True integerHere s fun n s' =>
      s' = s ∧ n ≠ Int64.minValue ∧ s.Takes file all s (wordsOfInt n) := by
  unfold integerHere
  rw [leads_current_bind]
  split
  · next n hn =>
    obtain ⟨hne, hdigits⟩ := (hall _ (hs.known _ List.mem_cons_self)).int hint
    have hmin := (Numeral.ne_minValue_of_nonneg (Numeral.nonneg_of_int64? hne hdigits hn)).1
    refine leads_pure ⟨rfl, hmin, hs.takes.congr ?_⟩
    rw [wordsOfInt, Numeral.toInt_of_int64? hne hdigits hn, Int.natAbs_natCast, Token.words,
      hint]
  · rw [leads_here_bind]
    exact leads_fail

/-- The sign of an integer is no part of the word. -/
theorem wordsOfInt_neg {n : Int64} (hmin : n ≠ Int64.minValue) :
    wordsOfInt (-n) = wordsOfInt n := by
  rw [wordsOfInt, wordsOfInt, Numeral.toInt_neg_of_ne hmin, Int.natAbs_neg]

theorem takes_signedInteger (hall : ∀ t ∈ all, t.Proper) (hs : s.Over file all) :
    Leads True signedInteger s fun n s' => s.Takes file all s' (wordsOfInt n) := by
  have hdigits (negative : Bool) {s : State} (hs : s.Over file all) : Leads True (do
      if ← currentIs .int then
        let n ← integerHere
        return if negative then -n else n
      else
        unexpected "integer") s fun n s' => s.Takes file all s' (wordsOfInt n) := by
    rw [leads_currentIs_bind]
    split
    · next hint =>
      rw [beq_iff_eq] at hint
      refine (takes_integerHere hall hs hint).bind ?_
      rintro n _ _ ⟨rfl, hmin, h⟩
      cases negative with
      | false => exact leads_pure h
      | true => exact leads_pure (h.congr (wordsOfInt_neg hmin).symm)
    · exact leads_unexpected
  unfold signedInteger
  rw [leads_currentIs_bind]
  split
  · next hminus =>
    rw [beq_iff_eq] at hminus
    refine leads_advance_bind ((hdigits true hs.advanced).mono fun n s' _ h => ?_)
    exact (hs.takesPlain hminus rfl).only h
  · exact hdigits false hs

theorem takes_variant (hall : ∀ t ∈ all, t.Proper) (hs : s.Over file all)
    (hident : s.current.kind = .ident) :
    Leads True variant s fun v s' => s.Takes file all s' v.words := by
  unfold variant
  rw [leads_nameHere_bind]
  have h := hs.takesName (Or.inl hident)
  refine leads_nextIs (fun hassign => ?_) ?_
  · refine leads_advance_bind (leads_advance_bind ?_)
    have h' := h.past hassign rfl
    exact (takes_signedInteger hall h'.top.advanced).bind fun n s' _ hn =>
      leads_pure (h'.add hn)
  · exact leads_pure (h.congr (add_zero _).symm)

/-- The variants, up to the closing brace. -/
theorem reads_variants (hall : ∀ t ∈ all, t.Proper) (h : first.Reads file all s ws) :
    Leads True (repeated variantPass []) s fun variants s' =>
      first.Reads file all s' (ws + (variants.map VariantDecl.words).sum) ∧
        s'.current.kind = .rbrace := by
  refine leads_repeated_of
    (I := fun variants s' =>
      first.Reads file all s' (ws + (variants.map VariantDecl.words).sum))
    (fun variants s' h => ?_) (h.congr (add_zero _).symm)
  unfold variantPass
  rw [leads_current_bind]
  split
  · next hclose =>
    refine leads_pure ⟨h.congr ?_, hclose⟩
    rw [sum_map_reverse]
  · next hident =>
    refine (takes_variant hall h.top hident).bind fun v s'' _ h' => ?_
    refine leads_advance_bind (leads_pure ((h.add h').reads.congr ?_))
    rw [List.map_cons, List.sum_cons]
    abel
  · next hcomma => exact leads_advance_bind (leads_pure (h.takesPlain hcomma rfl).reads)
  · exact leads_unexpected
  · exact leads_unexpected

theorem takes_enumDeclaration (hall : ∀ t ∈ all, t.Proper) (hs : s.Over file all)
    (henum : s.current.kind = .enumWord) :
    Leads True enumDeclaration s fun st s' => s.Takes file all s' st.words := by
  rw [enumDeclaration_eq, leads_here_bind]
  refine leads_expect_bind fun hident => ?_
  rw [leads_nameHere_bind]
  refine leads_expect_bind fun hopen => leads_advance_bind ?_
  have h := ((hs.takesPlain henum rfl).onlyName (Or.inl hident)).past hopen rfl
  refine (reads_variants hall h.reads).bind fun variants s' _ ⟨h', hclose⟩ => ?_
  rw [leads_spanFrom_bind]
  exact leads_pure (h'.takesPlain hclose rfl)

end Parser

end Script
