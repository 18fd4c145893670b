import Script.Proofs.Syntax.Placing

/-!
# Where declarations stand

Types, blocks, functions and declarations stand between the token they start with and
the one they end with.  In front of the body of a function there is a colon only where a
parameter has a type.
-/

namespace Script

namespace Parser

open State

variable {α : Type} {file : String} {all : List Token} {g : Grammar} {s s' : State}
  {xs : List Site}

/-- The productions of a grammar place their results. -/
structure Grammar.Lays (file : String) (all : List Token) (g : Grammar) : Prop where
  expression : ∀ precedence {s : State}, s.Over file all →
    Leads True (g.expression precedence) s fun e s' => s.Lays file all s' [.expr e]
  statement : ∀ {s : State}, s.Over file all →
    Leads True g.statement s fun st s' => s.Lays file all s' [.stmt st]
  failed : ∀ {s s' : State}, g.statement s = .failed s' → s'.file = s.file
  branch : ∀ {s : State}, s.Over file all →
    Leads True g.branch s fun e s' => s.Lays file all s' [.expr e]
  type : ∀ {s : State}, s.Over file all → Leads True g.type s fun t s' =>
    s.Lays file all s' [.type t] ∧ ¬ PassesColon all s s' ∧ s.current.kind ≠ .colon

/-! ### Lists -/

/-- A list of items separated by commas, where `I` holds in front of an item and `J`
behind it. -/
theorem leads_commaList {item : Parser α} {I J : List α → State → Prop}
    {Q : List α → State → Prop}
    (hitem : ∀ items s, I items s → Leads True item s fun a s' => J (a :: items) s')
    (hcomma : ∀ items s, J items s → s.next.kind = .comma → I items s.advanced)
    (hdone : ∀ items s, J items s → Q items.reverse s) (h : I [] s) :
    Leads True (commaList item) s Q := by
  rw [commaList_eq]
  refine leads_repeated_of (fun items s h => ?_) h
  refine (hitem items s h).bind fun a s' _ h' => ?_
  refine leads_takeComma_bind (fun hnext => ?_) ?_
  · exact leads_pure (hcomma _ s' h' hnext)
  · exact leads_pure (hdone _ s' h')

/-- The sites of a list are those of its items. -/
theorem lays_commaList {item : Parser α} {sites : α → List Site}
    (hitem : ∀ {s : State}, s.Over file all →
      Leads True item s fun a s' => s.Lays file all s' (sites a)) (hs : s.Over file all) :
    Leads True (commaList item) s fun items s' =>
      s.Lays file all s' (items.flatMap sites) := by
  refine leads_commaList
    (I := fun items s' => s.Holds file all s' (items.flatMap sites))
    (J := fun items s' => s.Lays file all s' (items.flatMap sites)) ?_ ?_ ?_ hs.holds
  · refine fun items s' h => (hitem h.top).mono fun a s'' _ h' => ?_
    exact ⟨(h.add h'.toHolds).sub (by simp), h'.more⟩
  · exact fun items s' h _ => h.step
  · exact fun items s' h => ⟨h.sub fun x hx => by simpa using hx, h.more⟩

/-- Items in braces end with the closing one. -/
theorem lays_braceList {item : Parser α} {sites : α → List Site}
    (hitem : ∀ {s : State}, s.Over file all →
      Leads True item s fun a s' => s.Lays file all s' (sites a)) (hs : s.Over file all) :
    Leads True (Grammar.braceList item) s fun items s' =>
      s.Lays file all s' (items.flatMap sites) := by
  have hpass : ∀ (items : List α) s', s.Holds file all s' (items.flatMap sites) →
      Leads True (bracePass item items) s' (Pass.Keeps
        (fun items s' => s.Holds file all s' (items.flatMap sites))
        fun items s' => s.Holds file all s' (items.flatMap sites) ∧
          s'.next.kind = .rbrace) := by
    intro items s' h
    unfold bracePass
    refine leads_nextIs (fun hclose => ?_) ?_
    · exact leads_pure ⟨h.sub fun x hx => by simpa using hx, hclose⟩
    · refine (hitem h.top).bind fun a s'' _ h' => ?_
      have hitems : s.Holds file all s'' ((a :: items).flatMap sites) :=
        (h.add h'.toHolds).sub (by simp)
      rw [leads_nextIs_bind]
      split
      · exact leads_pure hitems
      · exact leads_expect_bind fun _ => leads_pure hitems.step
  rw [braceList_eq]
  refine (leads_repeated_of hpass hs.holds).bind fun items s' _ ⟨h, hclose⟩ => ?_
  exact leads_advance_bind (leads_pure (h.lays_step hclose (by decide)))

/-! ### Types -/

theorem lays_typeHere (hg : g.Lays file all) (hs : s.Over file all) :
    Leads True g.typeHere s fun t s' =>
      s.Lays file all s' [.type t] ∧ ¬ PassesColon all s s' ∧ s.current.kind ≠ .colon := by
  unfold Grammar.typeHere
  rw [leads_here_bind, leads_current_bind]
  split
  · next hbracket =>
    refine leads_expect_bind fun hclose => leads_advance_bind ?_
    have h := hs.holds.step.step
    refine (hg.type h.top).bind fun element s' _ ⟨h', hplain, hcolon⟩ => ?_
    rw [leads_spanFrom_bind]
    refine leads_pure ⟨⟨(h.add h'.toHolds).span rfl (by simp [Site.parts, Site.ofType])
      ⟨.nil, trivial⟩, h'.more⟩, ?_, by simp [hbracket]⟩
    rw [h.passesColon_add h'.toHolds, hs.holds.step.passesColon_step,
      passesColon_advanced hs, hclose]
    rw [advanced_current] at hcolon
    simp [hplain, hcolon]
  · rw [leads_nextKind_bind]
    split
    · next hmap =>
      refine leads_advance_bind (leads_advance_bind ?_)
      have h := hs.holds.step.step
      refine (hg.type h.top).bind fun key s1 _ ⟨h1, hplain1, hcolon1⟩ => ?_
      refine leads_expect_bind fun hclose => leads_advance_bind ?_
      have h' := (h.add h1.toHolds).step.step
      refine (hg.type h'.top).bind fun value s2 _ ⟨h2, hplain2, hcolon2⟩ => ?_
      rw [leads_spanFrom_bind]
      refine leads_pure ⟨⟨(h'.add h2.toHolds).span rfl (by simp [Site.parts, Site.ofType])
        ⟨.nil, trivial⟩, h2.more⟩, ?_, by simp [hmap.1]⟩
      rw [h'.passesColon_add h2.toHolds, (h.add h1.toHolds).step.passesColon_step,
        (h.add h1.toHolds).passesColon_step, h.passesColon_add h1.toHolds,
        hs.holds.step.passesColon_step, passesColon_advanced hs, hclose, hmap.2]
      rw [advanced_current] at hcolon1 hcolon2
      simp [hplain1, hcolon1, hplain2, hcolon2]
    · split
      · next hname =>
        refine leads_pure ⟨⟨.leaf hs rfl rfl ⟨.nil, trivial⟩, ?_⟩,
          not_passesColon_refl s, ?_⟩
        all_goals
          intro hkind
          rw [hkind] at hname
          revert hname
          decide
      · exact leads_unexpected

/-- A type behind a colon, if there is one. -/
theorem lays_typeMark? (hg : g.Lays file all) (hs : s.Over file all)
    (hmore : s.current.kind ≠ .eof) :
    Leads True g.typeMark? s fun type? s' =>
      s.Lays file all s' (type?.toList.map .type) ∧
        (PassesColon all s s' ↔ type?.isSome = true) := by
  unfold Grammar.typeMark?
  rw [leads_nextIs_bind]
  split
  · next hcolon =>
    refine leads_advance_bind (leads_advance_bind ?_)
    have h := hs.holds.step.step
    refine (hg.type h.top).bind fun t s' _ ⟨h', _, _⟩ => ?_
    refine leads_pure ⟨⟨h.add h'.toHolds, h'.more⟩, iff_of_true ?_ rfl⟩
    rw [h.passesColon_add h'.toHolds, hs.holds.step.passesColon_step,
      passesColon_advanced hs]
    exact Or.inl (Or.inl (by simpa using hcolon))
  · exact leads_pure ⟨⟨hs.holds, hmore⟩,
      iff_of_false (not_passesColon_refl s) Bool.false_ne_true⟩

theorem lays_nextType (hg : g.Lays file all) (hs : s.Over file all) :
    Leads True g.nextType s fun t s' =>
      s.Lays file all s' [.type t] ∧ ¬ PassesColon all s s' := by
  unfold Grammar.nextType
  refine leads_advance_bind ((hg.type hs.advanced).mono fun t s' _ ⟨h, hplain, hcolon⟩ => ?_)
  refine ⟨⟨hs.holds.step.add h.toHolds, h.more⟩, ?_⟩
  rw [hs.holds.step.passesColon_add h.toHolds, passesColon_advanced hs]
  rw [advanced_current] at hcolon
  simp [hplain, hcolon]

/-! ### Functions -/

/-- The sites of a parameter. -/
def paramSites (p : Name × Option TypeExpr) : List Site :=
  .name p.1 :: p.2.toList.map .type

theorem lays_parameter (hg : g.Lays file all) (hs : s.Over file all) :
    Leads True g.parameter s fun p s' =>
      s.Lays file all s' (paramSites p) ∧ (PassesColon all s s' ↔ p.2.isSome = true) := by
  unfold Grammar.parameter
  refine leads_expect_bind fun hident => ?_
  rw [leads_nameHere_bind]
  have h := hs.holds.step
  have hmore : s.advanced.current.kind ≠ .eof := by
    rw [advanced_current, hident]
    decide
  refine (lays_typeMark? hg h.top hmore).bind fun type? s' _ ⟨h', hmark⟩ => ?_
  refine leads_pure ⟨⟨h.name.add h'.toHolds, h'.more⟩, ?_⟩
  rw [h.passesColon_add h'.toHolds, passesColon_advanced hs, hident, hmark]
  simp

/-- A parameter without a type is given one where its name stands. -/
theorem holds_settleParams {params : List (Name × Option TypeExpr)}
    (h : s.Holds file all s' (params.flatMap paramSites)) :
    s.Holds file all s' (Grammar.settleParams params).sites := by
  have hname : ∀ p ∈ params, Site.name p.1 ∈ params.flatMap paramSites :=
    fun p hp => List.mem_flatMap.mpr ⟨p, hp, List.mem_cons_self⟩
  unfold Grammar.settleParams
  split
  · refine h.of_forall fun x hx => ?_
    obtain ⟨_, hmem, hx⟩ := List.mem_flatMap.mp hx
    obtain ⟨⟨id, type?⟩, hp, rfl⟩ := List.mem_map.mp hmem
    have hid : s.Holds file all s' [.name id] := h.of_mem (hname _ hp)
    rcases List.mem_cons.mp hx with rfl | hx
    · exact hid
    · obtain rfl := List.mem_singleton.mp hx
      cases type? with
      | none => exact hid.typeAt
      | some t => exact h.of_mem (List.mem_flatMap.mpr ⟨_, hp, by simp [paramSites]⟩)
  · refine h.sub fun x hx => ?_
    obtain ⟨_, hmem, rfl⟩ := List.mem_map.mp hx
    obtain ⟨p, hp, rfl⟩ := List.mem_map.mp hmem
    exact hname p hp

theorem settleParams_typed (params : List (Name × Option TypeExpr)) :
    (∃ ps, Grammar.settleParams params = .typed ps) ↔
      ∃ p ∈ params, p.2.isSome = true := by
  unfold Grammar.settleParams
  rw [← List.any_eq_true]
  split
  · next h => exact iff_of_true ⟨_, rfl⟩ h
  · next h => exact iff_of_false nofun h

theorem lays_parameters (hg : g.Lays file all) (hs : s.Over file all) :
    Leads True g.parameters s fun params s' => s.Lays file all s' params.sites ∧
      (PassesColon all s s' ↔ ∃ ps, params = .typed ps) := by
  unfold Grammar.parameters
  refine leads_nextIs (fun hclose => ?_) ?_
  · refine leads_advance_bind (leads_pure ⟨hs.holds.lays_step hclose (by decide), ?_⟩)
    rw [passesColon_advanced hs, hclose]
    exact iff_of_false nofun nofun
  · have hlist : Leads True (commaList g.parameter) s fun params s' =>
        s.Holds file all s' (params.flatMap paramSites) ∧
          (PassesColon all s s' ↔ ∃ p ∈ params, p.2.isSome = true) := by
      refine leads_commaList
        (I := fun params s' => s.Holds file all s' (params.flatMap paramSites) ∧
          (PassesColon all s s' ↔ ∃ p ∈ params, p.2.isSome = true))
        (J := fun params s' => s.Holds file all s' (params.flatMap paramSites) ∧
          (PassesColon all s s' ↔ ∃ p ∈ params, p.2.isSome = true)) ?_ ?_ ?_
        ⟨hs.holds, iff_of_false (not_passesColon_refl s) (by simp)⟩
      · intro params s' ⟨h, hmark⟩
        refine (lays_parameter hg h.top).mono fun p s'' _ ⟨h', hmark'⟩ => ?_
        refine ⟨(h.add h'.toHolds).sub (by simp), ?_⟩
        rw [h.passesColon_add h'.toHolds, hmark, hmark']
        simp [or_comm]
      · intro params s' ⟨h, hmark⟩ hcomma
        refine ⟨h.step, ?_⟩
        rw [h.passesColon_step, hcomma, hmark]
        simp
      · intro params s' ⟨h, hmark⟩
        exact ⟨h.sub fun x hx => by simpa using hx, by simpa using hmark⟩
    refine hlist.bind fun params s' _ ⟨h, hmark⟩ => ?_
    refine leads_expect_bind fun hclose =>
      leads_pure ⟨(holds_settleParams h).lays_step hclose (by decide), ?_⟩
    rw [h.passesColon_step, hclose, hmark, settleParams_typed]
    simp

theorem lays_returnTypes (hg : g.Lays file all) (hs : s.Over file all)
    (hmore : s.current.kind ≠ .eof) :
    Leads True g.returnTypes s fun types s' =>
      s.Lays file all s' (types.map .type) ∧ ¬ PassesColon all s s' := by
  unfold Grammar.returnTypes
  refine leads_nextIs (fun harrow => ?_) ?_
  · refine leads_advance_bind ?_
    have h := hs.holds.step
    have hplain : ¬ PassesColon all s s.advanced := by
      rw [passesColon_advanced hs, harrow]
      decide
    refine leads_nextIs (fun hopen => ?_) ?_
    · refine leads_advance_bind ?_
      have hlist : Leads True (commaList g.nextType) s.advanced.advanced fun types s' =>
          s.Holds file all s' (types.map .type) ∧ ¬ PassesColon all s s' := by
        refine leads_commaList
          (I := fun types s' => s.Holds file all s' (types.map .type) ∧
            ¬ PassesColon all s s')
          (J := fun types s' => s.Holds file all s' (types.map .type) ∧
            ¬ PassesColon all s s') ?_ ?_ ?_ ⟨h.step, ?_⟩
        · intro types s' ⟨h, hplain⟩
          refine (lays_nextType hg h.top).mono fun t s'' _ ⟨h', hplain'⟩ => ?_
          refine ⟨(h.add h'.toHolds).sub (by simp), ?_⟩
          rw [h.passesColon_add h'.toHolds]
          exact not_or.mpr ⟨hplain, hplain'⟩
        · intro types s' ⟨h, hplain⟩ hcomma
          refine ⟨h.step, ?_⟩
          rw [h.passesColon_step, hcomma]
          simpa using hplain
        · intro types s' ⟨h, hplain⟩
          exact ⟨h.sub fun x hx => by simpa using hx, hplain⟩
        · rw [h.passesColon_step, hopen]
          simpa using hplain
      refine hlist.bind fun types s' _ ⟨h, hplain⟩ => ?_
      refine leads_expect_bind fun hclose =>
        leads_pure ⟨h.lays_step hclose (by decide), ?_⟩
      rw [h.passesColon_step, hclose]
      simpa using hplain
    · refine (lays_nextType hg h.top).bind fun t s' _ ⟨h', hplain'⟩ => ?_
      refine leads_pure ⟨⟨h.add h'.toHolds, h'.more⟩, ?_⟩
      rw [h.passesColon_add h'.toHolds]
      exact not_or.mpr ⟨hplain, hplain'⟩
  · exact leads_pure ⟨⟨hs.holds, hmore⟩, not_passesColon_refl s⟩

/-! ### Statements -/

/-- The statements that have been read between two states, last one first. -/
structure State.Lists (file : String) (all : List Token) (s s' : State)
    (statements : List Stmt) : Prop where
  holds : s.Holds file all s' (statements.map .stmt)
  behind : ∀ st ∈ statements, st.loc.stop ≤ s'.current.start
  ordered : statements.Pairwise fun st st' => st'.loc.stop ≤ st.loc.start

namespace State

variable {statements : List Stmt} {s'' : State} {st : Stmt}

theorem Over.lists (hs : s.Over file all) : s.Lists file all s [] :=
  ⟨hs.holds, by simp, .nil⟩

/-- One more statement, and a step behind it. -/
theorem Lists.cons (h : s.Lists file all s' statements)
    (h' : s'.Lays file all s'' [.stmt st]) :
    s.Lists file all s''.advanced (st :: statements) := by
  have hst := List.mem_singleton_self (Site.stmt st)
  have hapart := h'.top.apart h'.more
  have hstart := (Over.before_forward h'.forward h'.base).1
  have hend := (Over.before_forward h'.top.holds.step.forward h'.top).1
  refine ⟨(h.holds.add h'.toHolds).step.sub (by simp), fun st' hst' => ?_,
    List.pairwise_cons.mpr ⟨fun st' hst' => ?_, h.ordered⟩⟩
  · rcases List.mem_cons.mp hst' with rfl | hst'
    · exact (h'.stops _ hst).trans hapart
    · exact (h.behind st' hst').trans (hstart.trans hend)
  · exact (h.behind st' hst').trans (h'.starts _ hst)

/-- A statement that fails is left out. -/
theorem Lists.skip (h : s.Lists file all s' statements) (hforward : s'.Forward s'')
    (hfile : s''.file = s'.file) : s.Lists file all s''.advanced statements := by
  have hholds := (h.holds.skip hforward hfile).step
  refine ⟨hholds, fun st hst => (h.behind st hst).trans ?_, h.ordered⟩
  exact (Over.before_forward (hforward.trans s''.forward_advanced) h.holds.top).1

theorem Lists.reverse (h : s.Lists file all s' statements) :
    s.Holds file all s' (statements.reverse.map .stmt) ∧
      statements.reverse.Pairwise fun st st' => st.loc.stop ≤ st'.loc.start :=
  ⟨h.holds.sub (by simp), List.pairwise_reverse.mpr h.ordered⟩

end State

/-- A pass over a statement, whether it fails or not. -/
theorem lists_statement (hg : g.Lays file all) {statements : List Stmt}
    {Q : List Stmt → State → Prop} (h : s.Lists file all s' statements) :
    Leads True (do
      let statement ← optional g.statement
      advance
      return .again (statement.toList ++ statements)) s'
      (Pass.Keeps (fun statements s' => s.Lists file all s' statements) Q) := by
  have hstatement : Leads True (optional g.statement) s' fun st? s'' =>
      s.Lists file all s''.advanced (st?.toList ++ statements) :=
    leads_optional (hg.statement h.holds.top) (fun st s'' h' => h.cons h')
      fun s'' hrun hforward => h.skip hforward (hg.failed hrun)
  exact hstatement.bind fun st? s'' _ h' => leads_advance_bind (leads_pure h')

theorem lays_block (hg : g.Lays file all) (hs : s.Over file all) :
    Leads True g.block s fun b s' =>
      s.Lays file all s' [.block b] ∧ b.loc.start = s.current.start := by
  have hloop : Leads True (repeated g.blockPass []) s.advanced fun statements s' =>
      (s.advanced.Holds file all s' (statements.map .stmt) ∧
        statements.Pairwise fun st st' => st.loc.stop ≤ st'.loc.start) ∧
      s'.current.kind = .rbrace := by
    refine leads_repeated_of (I := fun statements s' => s.advanced.Lists file all s' statements)
      (fun statements s' h => ?_) hs.advanced.lists
    unfold Grammar.blockPass
    rw [leads_current_bind]
    split
    · next hclose => exact leads_pure ⟨h.reverse, hclose⟩
    · exact leads_unexpected
    · exact lists_statement hg h
  rw [Grammar.block_eq, leads_here_bind]
  refine leads_advance_bind (hloop.bind fun statements s' _ ⟨⟨h, hordered⟩, hclose⟩ => ?_)
  rw [leads_spanFrom_bind]
  have h' := (h.of_step hs).lays hclose (by decide)
  exact leads_pure ⟨⟨h'.span rfl (by simp [Site.parts]) ⟨hordered, trivial⟩, h'.more⟩,
    Location.start_through _ _⟩

theorem lays_nextBlock (hg : g.Lays file all) (hs : s.Over file all) :
    Leads True g.nextBlock s fun b s' => s.Lays file all s' [.block b] ∧
      b.loc.start = s.advanced.current.start ∧ s.next.kind = .lbrace := by
  unfold Grammar.nextBlock
  refine leads_expect_bind fun hopen => ?_
  exact (lays_block hg hs.advanced).mono fun b s' _ ⟨h, hstart⟩ =>
    ⟨⟨h.of_step hs, h.more⟩, hstart, hopen⟩

/-- A colon between two states, from a token on that is none. -/
theorem State.Holds.passesColon_iff (h : s.Holds file all s' xs)
    (hs : s.current.kind ≠ .colon) (hmore : s'.current.kind ≠ .eof)
    (hnext : s'.next.kind ≠ .colon) : PassesColon all s s' ↔
      ∃ t ∈ all, t.kind = .colon ∧ s.current.start ≤ t.start ∧
        t.start < s'.advanced.current.start := by
  have hcolon : ∀ t : Token, t.kind = .colon → t.kind ≠ .eof := fun t ht => by
    rw [ht]
    decide
  have hlt := h.top.start_lt hmore
  refine ⟨fun ⟨t, ht, hkind, hstart, hend⟩ => ⟨t, ht, hkind, hstart.le, hend.trans_lt hlt⟩,
    fun ⟨t, ht, hkind, hstart, hend⟩ => ?_⟩
  have hpasses : PassesColon all s s'.advanced := by
    refine ⟨t, ht, hkind, lt_of_le_of_ne hstart fun heq => ?_, hend.le⟩
    rcases List.mem_cons.mp (h.base.ahead t ht (hcolon t hkind) hstart) with rfl | hmem
    · exact hs hkind
    · have hbefore := (List.pairwise_cons.mp h.base.ordered).1 t hmem
      have hcurrent : s.current.kind ≠ .eof := fun heof =>
        hcolon t hkind ((List.pairwise_cons.mp h.base.ended.stays).1 t hmem heof)
      have hapart := hbefore.apart hcurrent
      exact absurd (heq ▸ hapart) h.base.current.nonempty.not_ge
  exact (h.passesColon_step.mp hpasses).resolve_right hnext

/-- A function from its parameters on, if it starts with the token `first` is in front
of. -/
theorem lays_functionRest (hg : g.Lays file all) {first : State}
    (h : first.Holds file all s xs) (hfirst : first.current.kind ≠ .colon)
    (hplain : ¬ PassesColon all first s) (name : Option String) :
    Leads True (g.functionRest name (locationOf first first.current)) s fun f s' =>
      first.Lays file all s' (xs ++ [Site.function f]) := by
  unfold Grammar.functionRest
  refine (lays_parameters hg h.top).bind fun params s1 _ ⟨h1, hmark⟩ => ?_
  refine (lays_returnTypes hg h1.top h1.more).bind fun types s2 _ ⟨h2, hplain2⟩ => ?_
  refine (lays_nextBlock hg h2.top).bind fun body s3 _ ⟨h3, hstart, hopen⟩ => ?_
  rw [leads_spanFrom_bind]
  have hhead := (h.add h1.toHolds).add h2.toHolds
  have hcolons : PassesColon all first s2 ↔ ∃ ps, params = .typed ps := by
    rw [(h.add h1.toHolds).passesColon_add h2.toHolds, h.passesColon_add h1.toHolds, hmark]
    simp [hplain, hplain2]
  have hmarked := hhead.passesColon_iff hfirst h2.more (by rw [hopen]; decide)
  have hall := hhead.add h3.toHolds
  refine leads_pure ⟨(hall.sub ?_).union (hall.span rfl ?_ ⟨.nil, ?_⟩), h3.more⟩
  · simp [List.append_assoc]
  · intro x hx
    rw [List.append_assoc, List.append_assoc]
    exact List.mem_append_right xs (by simpa [Site.parts] using hx)
  · refine hcolons.symm.trans ?_
    rw [hstart, Location.start_through]
    exact hmarked

/-! ### Declarations -/

theorem lays_operand (hg : g.Lays file all) (hs : s.Over file all) :
    Leads True g.operand s fun e s' => s.Lays file all s' [.expr e] := by
  unfold Grammar.operand
  exact leads_advance_bind ((hg.expression .lowest hs.advanced).mono fun e s' _ h =>
    ⟨h.of_step hs, h.more⟩)

theorem lays_binding (hg : g.Lays file all) (hs : s.Over file all) (constant : Bool) :
    Leads True (g.binding constant) s fun st s' => s.Lays file all s' [.stmt st] := by
  unfold Grammar.binding
  rw [leads_here_bind]
  refine leads_expect_bind fun hident => ?_
  rw [leads_nameHere_bind]
  have h := hs.holds.step.name
  have hmore : s.advanced.current.kind ≠ .eof := by
    rw [advanced_current, hident]
    decide
  refine (lays_typeMark? hg h.top hmore).bind fun type? s1 _ ⟨h1, _⟩ => ?_
  refine leads_expect_bind fun _ => ?_
  have h' := (h.add h1.toHolds).step
  refine (lays_operand hg h'.top).bind fun value s2 _ h2 => ?_
  rw [leads_spanFrom_bind]
  exact leads_pure ⟨(h'.add h2.toHolds).span rfl (by simp [Site.parts, Site.ofStmt])
    ⟨.nil, trivial⟩, h2.more⟩

theorem lays_definition (hg : g.Lays file all) (hs : s.Over file all)
    (hdefine : s.current.kind = .defineWord) :
    Leads True g.definition s fun st s' => s.Lays file all s' [.stmt st] := by
  have hfirst : s.current.kind ≠ .colon := by
    rw [hdefine]
    decide
  unfold Grammar.definition
  rw [leads_here_bind]
  refine leads_expect_bind fun hident => ?_
  rw [leads_nameHere_bind]
  have h := hs.holds.step.name
  have hplain : ¬ PassesColon all s s.advanced := by
    rw [passesColon_advanced hs, hident]
    decide
  refine leads_nextIs (fun hdot => ?_) ?_
  · refine leads_advance_bind (leads_expect_bind fun hmethod => ?_)
    rw [leads_current_bind]
    refine leads_expect_bind fun hopen => ?_
    have hplain' : ¬ PassesColon all s s.advanced.advanced.advanced.advanced := by
      rw [h.step.step.passesColon_step, h.step.passesColon_step, h.passesColon_step, hdot,
        hmethod, hopen]
      simpa using hplain
    refine (lays_functionRest hg h.step.step.step hfirst hplain' _).bind
      fun f s' _ h' => ?_
    rw [leads_spanFrom_bind]
    exact leads_pure ⟨h'.span rfl (by simp [Site.parts, Site.ofStmt]) ⟨.nil, trivial⟩,
      h'.more⟩
  · refine leads_expect_bind fun hopen => ?_
    have hplain' : ¬ PassesColon all s s.advanced.advanced := by
      rw [h.passesColon_step, hopen]
      simpa using hplain
    refine (lays_functionRest hg h.step hfirst hplain' _).bind fun f s' _ h' => ?_
    rw [leads_spanFrom_bind]
    have hvalue : s.Holds file all s' [.expr (.function f)] :=
      (h'.of_mem (List.mem_append_right _ (List.mem_singleton_self _))).wrap rfl rfl
        ⟨.nil, trivial⟩
    exact leads_pure ⟨(h'.union hvalue).span rfl (by simp [Site.parts, Site.ofStmt])
      ⟨.nil, trivial⟩, h'.more⟩

theorem lays_returning (hg : g.Lays file all) (hs : s.Over file all)
    (hmore : s.current.kind ≠ .eof) :
    Leads True g.returning s fun st s' => s.Lays file all s' [.stmt st] := by
  unfold Grammar.returning
  rw [leads_here_bind, leads_nextKind_bind]
  have hnone : s.Lays file all s [.stmt (.ret none (locationOf s s.current))] :=
    ⟨.leaf hs rfl rfl ⟨.nil, trivial⟩, hmore⟩
  split
  · exact leads_pure hnone
  · exact leads_pure hnone
  · exact leads_pure hnone
  · refine (lays_operand hg hs).bind fun value s' _ h => ?_
    rw [leads_spanFrom_bind]
    exact leads_pure ⟨h.span rfl (by simp [Site.parts, Site.ofStmt]) ⟨.nil, trivial⟩, h.more⟩

/-- The parameter of a handler is laid behind what holds already. -/
theorem holds_catchParam {first : State} (h : first.Holds file all s xs) :
    Leads True Grammar.catchParam s fun id? s' =>
      first.Holds file all s' (xs ++ id?.toList.map .name) := by
  unfold Grammar.catchParam
  rw [leads_nextIs_bind]
  split
  · refine leads_advance_bind (leads_expect_bind fun _ => ?_)
    rw [leads_nameHere_bind]
    exact leads_expect_bind fun _ => leads_pure h.step.step.name.step
  · exact leads_pure (by simpa using h)

theorem lays_attempt (hg : g.Lays file all) (hs : s.Over file all) :
    Leads True g.attempt s fun t s' => s.Lays file all s' [.attempt t] := by
  rw [Grammar.attempt_eq, leads_here_bind]
  refine (lays_nextBlock hg hs).bind fun body s1 _ ⟨h1, _⟩ => ?_
  rw [leads_nextIs_bind]
  split
  · refine leads_advance_bind ?_
    refine (holds_catchParam h1.toHolds.step).bind fun id? s2 _ h2 => ?_
    refine (lays_nextBlock hg h2.top).bind fun handler s3 _ ⟨h3, _⟩ => ?_
    rw [leads_spanFrom_bind]
    exact leads_pure ⟨(h2.add h3.toHolds).span rfl (by simp [Site.parts]) ⟨.nil, trivial⟩,
      h3.more⟩
  · rw [leads_spanFrom_bind]
    exact leads_pure ⟨h1.span rfl (by simp [Site.parts]) ⟨.nil, trivial⟩, h1.more⟩

theorem lays_nextString (hs : s.Over file all) :
    Leads True nextString s fun _ s' => s.Lays file all s' [] := by
  unfold nextString
  refine leads_expect_bind fun hstring => ?_
  rw [leads_current_bind]
  exact leads_pure (hs.holds.lays_step hstring (by decide))

theorem lays_inclusion (hs : s.Over file all) :
    Leads True inclusion s fun st s' => s.Lays file all s' [.stmt st] := by
  unfold inclusion
  rw [leads_here_bind, leads_nextIs_bind]
  split
  · refine leads_advance_bind ?_
    refine (lays_commaList lays_nextString hs.advanced).bind fun modules s1 _ h1 => ?_
    refine leads_expect_bind fun hclose => ?_
    rw [leads_spanFrom_bind]
    have h2 := (h1.of_step hs).lays_step hclose (by decide)
    exact leads_pure ⟨h2.span rfl (by simp [Site.parts, Site.ofStmt]) ⟨.nil, trivial⟩,
      h2.more⟩
  · refine (lays_nextString hs).bind fun module s1 _ h1 => ?_
    rw [leads_spanFrom_bind]
    exact leads_pure ⟨h1.span rfl (by simp [Site.parts, Site.ofStmt]) ⟨.nil, trivial⟩,
      h1.more⟩

/-- The names of the fields, up to the closing brace. -/
theorem holds_fields {first : State} (h : first.Holds file all s xs) :
    Leads True (repeated fieldPass []) s fun fields s' =>
      first.Holds file all s' (xs ++ fields.map .name) ∧ s'.current.kind = .rbrace := by
  refine leads_repeated_of
    (I := fun fields s' => first.Holds file all s' (xs ++ fields.map .name))
    (fun fields s' h => ?_) (by simpa using h)
  unfold fieldPass
  rw [leads_current_bind]
  split
  · next hclose => exact leads_pure ⟨h.sub (by simp), hclose⟩
  · rw [leads_nameHere_bind]
    exact leads_advance_bind (leads_pure (h.name.step.sub (by simp)))
  · exact leads_advance_bind (leads_pure h.step)
  · exact leads_advance_bind (leads_pure h.step)
  · exact leads_unexpected
  · exact leads_unexpected

theorem lays_structDeclaration (hs : s.Over file all) :
    Leads True structDeclaration s fun st s' => s.Lays file all s' [.stmt st] := by
  rw [structDeclaration_eq, leads_here_bind]
  refine leads_expect_bind fun _ => ?_
  rw [leads_nameHere_bind]
  refine leads_expect_bind fun _ => leads_advance_bind ?_
  refine (holds_fields hs.holds.step.name.step.step).bind fun fields s' _ ⟨h, hclose⟩ => ?_
  rw [leads_spanFrom_bind]
  have h' := h.lays hclose (by decide)
  exact leads_pure ⟨h'.span rfl (by simp [Site.parts, Site.ofStmt]) ⟨.nil, trivial⟩,
    h'.more⟩

theorem leads_integerHere : Leads True integerHere s fun _ s' => s' = s := by
  unfold integerHere
  rw [leads_current_bind]
  split
  · exact leads_pure rfl
  · rw [leads_here_bind]
    exact leads_fail

/-- A number stands behind a variant, but it has no location. -/
theorem lays_signedInteger (hs : s.Over file all) :
    Leads True signedInteger s fun _ s' => s.Lays file all s' [] := by
  have hdigits (negative : Bool) {s : State} (hs : s.Over file all) : Leads True (do
      if ← currentIs .int then
        let n ← integerHere
        return if negative then -n else n
      else
        unexpected "integer") s fun _ s' => s.Lays file all s' [] := by
    rw [leads_currentIs_bind]
    split
    · next hint =>
      rw [beq_iff_eq] at hint
      refine leads_integerHere.bind ?_
      rintro n _ _ rfl
      exact leads_pure (hs.holds.lays hint (by decide))
    · exact leads_unexpected
  unfold signedInteger
  rw [leads_currentIs_bind]
  split
  · exact leads_advance_bind ((hdigits true hs.advanced).mono fun _ _ _ h =>
      ⟨h.of_step hs, h.more⟩)
  · exact hdigits false hs

theorem lays_variant (hs : s.Over file all) (hmore : s.current.kind ≠ .eof) :
    Leads True variant s fun v s' => s.Lays file all s' [.name v.name] := by
  unfold variant
  rw [leads_nameHere_bind, leads_nextIs_bind]
  have h := hs.holds.name
  split
  · refine leads_advance_bind (leads_advance_bind ?_)
    refine (lays_signedInteger h.step.step.top).bind fun n s' _ h' => ?_
    exact leads_pure ⟨h.step.step.add h'.toHolds, h'.more⟩
  · exact leads_pure ⟨h, hmore⟩

/-- The names of the variants, up to the closing brace. -/
theorem holds_variants {first : State} (h : first.Holds file all s xs) :
    Leads True (repeated variantPass []) s fun variants s' =>
      first.Holds file all s' (xs ++ variants.map fun v => .name v.name) ∧
        s'.current.kind = .rbrace := by
  refine leads_repeated_of
    (I := fun variants s' => first.Holds file all s' (xs ++ variants.map fun v => .name v.name))
    (fun variants s' h => ?_) (by simpa using h)
  unfold variantPass
  rw [leads_current_bind]
  split
  · next hclose => exact leads_pure ⟨h.sub (by simp), hclose⟩
  · next hident =>
    refine (lays_variant h.top (by rw [hident]; decide)).bind fun v s'' _ h' => ?_
    exact leads_advance_bind (leads_pure ((h.add h'.toHolds).step.sub (by simp)))
  · exact leads_advance_bind (leads_pure h.step)
  · exact leads_unexpected
  · exact leads_unexpected

theorem lays_enumDeclaration (hs : s.Over file all) :
    Leads True enumDeclaration s fun st s' => s.Lays file all s' [.stmt st] := by
  rw [enumDeclaration_eq, leads_here_bind]
  refine leads_expect_bind fun _ => ?_
  rw [leads_nameHere_bind]
  refine leads_expect_bind fun _ => leads_advance_bind ?_
  refine (holds_variants hs.holds.step.name.step.step).bind fun variants s' _ ⟨h, hclose⟩ => ?_
  rw [leads_spanFrom_bind]
  have h' := h.lays hclose (by decide)
  exact leads_pure ⟨h'.span rfl (by simp [Site.parts, Site.ofStmt]) ⟨.nil, trivial⟩,
    h'.more⟩

end Parser

end Script
