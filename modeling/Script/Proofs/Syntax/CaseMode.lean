import Script.Proofs.Syntax.Spans

/-!
# The mode for the values of a case

Inside the values of a `case` a brace behind a name opens the body of the case.  No
parser turns this mode on for the one that called it, and it stays on until the values
of another case have been read, which turn it off.  So a name is the last value of its
case unless a value in front of it contains a case of its own.
-/

namespace Script

namespace Parser

variable {α β σ : Type}

/-! ### Values of a case in a run -/

/-- The states from which the productions of a grammar read the values of a case. -/
structure CaseReads where
  expression : Precedence → State → Prop
  statement : State → Prop
  branch : State → Prop
  type : State → Prop

/-- Some pass of a loop reads the values of a case. -/
def ReadsInPasses (body : σ → Parser (Pass σ β)) (reads : σ → State → Prop) :
    List Token → σ → State → Prop
  | [], _, _ => False
  | _ :: fuel, state, s => reads state s ∨
    ∃ state' s', body state s = .ok (.again state') s' ∧
      ReadsInPasses body reads fuel state' s'

/-- On its way from a state the parser reads the values of a case. -/
def Weave.Reads (g : Grammar) (reads : CaseReads) :
    {α : Type} → {p : Grammar → Parser α} → Weave p → State → Prop
  | _, _, .look _, _ => False
  | _, _, .advance, _ => False
  | _, _, .fail _ _, _ => False
  | _, _, @Weave.bind _ _ p _ first next, s => first.Reads g reads s ∨
    ∃ a s', p g s = .ok a s' ∧ (next a).Reads g reads s'
  | _, _, @Weave.ite _ b _ _ _ yes no, s =>
    b ∧ yes.Reads g reads s ∨ ¬ b ∧ no.Reads g reads s
  | _, _, @Weave.repeated _ _ body pass state, s =>
    ReadsInPasses (fun state => body state g) (fun state => (pass state).Reads g reads)
      (s.current :: s.current :: s.next :: s.rest) state s
  | _, _, .inCaseValues _, _ => True
  | _, _, .statement, s => reads.statement s
  | _, _, .expression precedence, s => reads.expression precedence s
  | _, _, .branch, s => reads.branch s
  | _, _, .type, s => reads.type s
  | _, _, .call _ w, s => w.Reads g reads s

/-- The states from which the productions of `grammar n` read the values of a case. -/
def readsIn : Nat → CaseReads
  | 0 =>
    { expression := fun _ _ => False
      statement := fun _ => False
      branch := fun _ => False
      type := fun _ => False }
  | n + 1 =>
    { expression := fun precedence =>
        (Weave.expressionHere precedence).Reads (grammar n) (readsIn n)
      statement := fun s => ∃ hkind : s.current.kind ≠ .semicolon,
        (Weave.statementFrom s.current.kind hkind).Reads (grammar n) (readsIn n) s
      branch := Weave.branchHere.Reads (grammar n) (readsIn n)
      type := Weave.typeHere.Reads (grammar n) (readsIn n) }

/-- On its way from a state a production of `grammar n` reads the values of a case. -/
inductive ReadsCase (n : Nat) : {α : Type} → Parser α → State → Prop where
  | woven {α : Type} {p : Grammar → Parser α} {s : State} (w : Weave p)
      (h : w.Reads (grammar n) (readsIn n) s) : ReadsCase n (p (grammar n)) s
  | statement {s : State} (h : (readsIn n).statement s) :
      ReadsCase n (grammar n).statement s
  | statementHere {s : State} (h : (readsIn (n + 1)).statement s) :
      ReadsCase n (grammar n).statementHere s
  | statementBody {s : State} (hkind : s.current.kind ≠ .semicolon)
      (h : (Weave.statementOf s.current.kind hkind).Reads (grammar n) (readsIn n) s) :
      ReadsCase n (grammar n).statementBody s

/-! ### The mode behind a run -/

/-- Behind a parser the mode is on if it was on before and the parser has not read the
values of a case. -/
def Outcome.Mode (s : State) (reads : Prop) (o : Outcome α) : Prop :=
  ∀ s' ∈ o.state?, s'.inCase = true ↔ s.inCase = true ∧ ¬ reads

/-- The same of the productions of a grammar. -/
structure Grammar.Mode (g : Grammar) (reads : CaseReads) : Prop where
  expression : ∀ precedence s,
    (g.expression precedence s).Mode s (reads.expression precedence s)
  statement : ∀ s, (g.statement s).Mode s (reads.statement s)
  branch : ∀ s, (g.branch s).Mode s (reads.branch s)
  type : ∀ s, (g.type s).Mode s (reads.type s)

variable {g : Grammar} {reads : CaseReads} {s s' : State} {r r' : Prop}

theorem Outcome.Mode.congr {o : Outcome α} (h : o.Mode s r) (hr : r ↔ r') : o.Mode s r' := by
  obtain rfl : r = r' := propext hr
  exact h

/-- The mode behind a second run. -/
theorem Outcome.Mode.after {o : Outcome α} (ho : o.Mode s' r')
    (hs' : s'.inCase = true ↔ s.inCase = true ∧ ¬ r) : o.Mode s (r ∨ r') := by
  intro s'' hs''
  rw [ho s'' hs'', hs', not_or, and_assoc]

theorem Outcome.Mode.of_same {o : Outcome α} (h : ∀ s' ∈ o.state?, s'.inCase = s.inCase) :
    o.Mode s False := by
  intro s' hs'
  simp [h s' hs']

theorem State.advanced_inCase (s : State) : s.advanced.inCase = s.inCase := by
  unfold State.advanced
  split <;> rfl

theorem mode_bind {p : Parser α} {f : α → Parser β} {r' : α → State → Prop}
    (hp : (p s).Mode s r) (hf : ∀ a s', (f a s').Mode s' (r' a s')) :
    ((p >>= f) s).Mode s (r ∨ ∃ a s', p s = .ok a s' ∧ r' a s') := by
  rw [bind_eq]
  cases hrun : p s with
  | ok a s' =>
    rw [hrun] at hp
    refine ((hf a s').after (hp s' rfl)).congr (or_congr_right ?_)
    refine ⟨fun h => ⟨a, s', rfl, h⟩, ?_⟩
    rintro ⟨_, _, heq, h⟩
    cases heq
    exact h
  | failed s' =>
    rw [hrun] at hp
    exact hp.congr (by simp)
  | exhausted => exact fun _ => nofun

theorem mode_ite {b : Prop} [Decidable b] {p q : Parser α} (hyes : (p s).Mode s r)
    (hno : (q s).Mode s r') : ((if b then p else q) s).Mode s (b ∧ r ∨ ¬ b ∧ r') := by
  by_cases hb : b
  · rw [if_pos hb]
    exact hyes.congr (by simp [hb])
  · rw [if_neg hb]
    exact hno.congr (by simp [hb])

/-- A pass that is the last one is the only one that reads. -/
theorem readsInPasses_of_last {body : σ → Parser (Pass σ β)} {r : σ → State → Prop} {t : Token}
    {fuel : List Token} {state : σ} (h : ∀ state' s', body state s ≠ .ok (.again state') s') :
    ReadsInPasses body r (t :: fuel) state s ↔ r state s :=
  or_iff_left fun ⟨state', s', heq, _⟩ => h state' s' heq

theorem mode_iterate {body : σ → Parser (Pass σ β)} {r : σ → State → Prop}
    (hbody : ∀ state s, (body state s).Mode s (r state s)) (fuel : List Token) (state : σ)
    (s : State) :
    (iterate body fuel state s).Mode s (ReadsInPasses body r fuel state s) := by
  induction fuel generalizing state s with
  | nil =>
    intro s' hs'
    cases hs'
  | cons t fuel ih =>
    have hpass := hbody state s
    unfold iterate
    cases hrun : body state s with
    | ok pass s' =>
      rw [hrun] at hpass
      cases pass with
      | again state' =>
        refine ((ih state' s').after (hpass s' rfl)).congr (or_congr_right ?_)
        refine ⟨fun h => ⟨state', s', hrun, h⟩, ?_⟩
        rintro ⟨_, _, heq, h⟩
        cases hrun.symm.trans heq
        exact h
      | done result =>
        rw [readsInPasses_of_last (by simp [hrun])]
        exact hpass
    | failed s' =>
      rw [hrun] at hpass
      rw [readsInPasses_of_last (by simp [hrun])]
      exact hpass
    | exhausted =>
      intro s' hs'
      cases hs'

/-- Behind the values of a case the mode is off. -/
theorem mode_inCaseValues (p : Parser α) (s : State) : (inCaseValues p s).Mode s True := by
  intro s' hs'
  have hoff : s'.inCase = false := by
    unfold Parser.inCaseValues at hs'
    cases hrun : p { s with inCase := true } with
    | ok a s'' =>
      rw [hrun] at hs'
      obtain rfl := Option.some.inj hs'
      rfl
    | failed s'' =>
      rw [hrun] at hs'
      obtain rfl := Option.some.inj hs'
      rfl
    | exhausted =>
      rw [hrun] at hs'
      cases hs'
  simp [hoff]

theorem mode_optional {p : Parser α} (hp : (p s).Mode s r) : (optional p s).Mode s r := by
  unfold Parser.optional
  cases hrun : p s with
  | ok a s' =>
    rw [hrun] at hp
    exact hp
  | failed s' =>
    rw [hrun] at hp
    exact hp
  | exhausted => exact fun _ => nofun

/-- The mode behind every parser that is put together of steps and calls. -/
theorem Weave.mode (hg : g.Mode reads) {p : Grammar → Parser α} (w : Weave p) (s : State) :
    (p g s).Mode s (w.Reads g reads s) := by
  induction w generalizing s with
  | look f => exact .of_same (s := s) fun s' hs' => by cases hs'; rfl
  | advance =>
    have hsame : ∀ s' ∈ (Parser.advance s).state?, s'.inCase = s.inCase := by
      rw [advance_eq]
      rintro _ ⟨⟩
      exact s.advanced_inCase
    exact .of_same hsame
  | fail problem loc => exact .of_same fun s' hs' => by cases hs'; rfl
  | bind first next ihfirst ihnext => exact mode_bind (ihfirst s) fun a s' => ihnext a s'
  | ite b yes no ihyes ihno => exact mode_ite (ihyes s) (ihno s)
  | repeated pass state ih => exact mode_iterate (fun state s => ih state s) _ state s
  | inCaseValues w ih => exact mode_inCaseValues _ s
  | statement => exact mode_optional (hg.statement s)
  | expression precedence => exact hg.expression precedence s
  | branch => exact hg.branch s
  | type => exact hg.type s
  | call h w ih => exact ih s

/-- A statement is woven, but for a lone semicolon, at which nothing is read. -/
theorem mode_statementHere (hg : g.Mode reads) (s : State) :
    (g.statementHere s).Mode s (∃ hkind : s.current.kind ≠ .semicolon,
      (Weave.statementFrom s.current.kind hkind).Reads g reads s) := by
  rw [Grammar.statementHere_eq]
  by_cases hkind : s.current.kind = .semicolon
  · have hsame : (g.statementFrom s.current.kind s).Mode s False := by
      rw [hkind]
      exact .of_same fun s' hs' => by cases hs'; rfl
    exact hsame.congr (iff_of_false id fun ⟨hne, _⟩ => hne hkind)
  · exact ((Weave.statementFrom _ hkind).mode hg s).congr
      ⟨fun h => ⟨hkind, h⟩, fun ⟨_, h⟩ => h⟩

theorem grammar_mode (n : Nat) : (grammar n).Mode (readsIn n) := by
  induction n with
  | zero =>
    exact ⟨fun _ _ _ => nofun, fun _ _ => nofun, fun _ _ => nofun, fun _ _ => nofun⟩
  | succ n ih =>
    exact ⟨fun precedence s => (Weave.expressionHere precedence).mode ih s,
      mode_statementHere ih, Weave.branchHere.mode ih, Weave.typeHere.mode ih⟩

variable {n : Nat}

/-- Where the values of a case have been read, the mode is off. -/
theorem ReadsCase.mode_off {p : Parser α} (h : ReadsCase n p s) (hs' : s' ∈ (p s).state?) :
    s'.inCase = false := by
  have off : ∀ {r : Prop}, (p s).Mode s r → r → s'.inCase = false := by
    intro r hmode hr
    exact Bool.eq_false_iff.mpr fun hon => ((hmode s' hs').mp hon).2 hr
  cases h with
  | woven w h => exact off (w.mode (grammar_mode n) s) h
  | statement h => exact off ((grammar_mode n).statement s) h
  | statementHere h => exact off (mode_statementHere (grammar_mode n) s) h
  | statementBody hkind h => exact off ((Weave.statementOf _ hkind).mode (grammar_mode n) s) h

/-- The mode behind every production. -/
theorem Production.mode {p : Parser α} (h : Production (grammar n) p) (s : State) :
    (p s).Mode s (ReadsCase n p s) := by
  -- One way to put the production together is enough: whatever reads the values of a case
  -- has turned the mode off.
  have of_known : ∀ {r : Prop}, (p s).Mode s r → (r → ReadsCase n p s) →
      (p s).Mode s (ReadsCase n p s) := by
    intro r hmode hr s' hs'
    refine ⟨fun hon => ⟨((hmode s' hs').mp hon).1, fun hreads => ?_⟩, fun ⟨hon, hnone⟩ =>
      (hmode s' hs').mpr ⟨hon, fun h => hnone (hr h)⟩⟩
    rw [hreads.mode_off hs'] at hon
    cases hon
  rcases h.readsStatement_or_woven with hreads | ⟨p', ⟨w⟩, rfl⟩
  · cases hreads with
    | statement => exact of_known ((grammar_mode n).statement s) .statement
    | statementHere => exact of_known (mode_statementHere (grammar_mode n) s) .statementHere
    | statementBody =>
      rw [Grammar.statementBody_eq] at of_known ⊢
      by_cases hkind : s.current.kind = .semicolon
      · refine of_known (r := False) ?_ False.elim
        rw [hkind]
        exact .of_same fun s' hs' => by cases hs'; rfl
      · exact of_known ((Weave.statementOf _ hkind).mode (grammar_mode n) s)
          (.statementBody hkind)
  · exact of_known (w.mode (grammar_mode n) s) (.woven w)

/-! ### Lists of values -/

/-- Values of a case that are read one after another, each with the state in front of it
and a comma behind it. -/
inductive Grammar.ReadsValues (g : Grammar) : State → List (State × Expr) → State → Prop where
  | nil (s : State) : g.ReadsValues s [] s
  | cons {s s' s'' : State} {e : Expr} {values : List (State × Expr)}
      (hrun : g.operand s = .ok e s') (hcomma : s'.next.kind = .comma)
      (hrest : g.ReadsValues s'.advanced values s'') :
      g.ReadsValues s ((s, e) :: values) s''

/-- The fields of a record behind its name, and the brace in front of them. -/
def Grammar.recordBehind (g : Grammar) (name : Name) : Parser Expr := do
  advance
  let fields ← braceList g.field
  return .record name fields (← spanFrom name.loc)

/-- The body of a case behind its values. -/
def Grammar.caseBody (g : Grammar) (start : Location) (values : List Expr) : Parser Case := do
  let body ← g.nextBlock
  return { values, body, loc := ← spanFrom start }

/-- Behind some values the mode is on if none of them contains values of another case. -/
theorem Grammar.ReadsValues.mode {values : List (State × Expr)}
    (h : (grammar n).ReadsValues s values s') :
    s'.inCase = true ↔ s.inCase = true ∧ ∀ v ∈ values, ¬ ReadsCase n (grammar n).operand v.1 := by
  induction h with
  | nil s => simp
  | @cons s s' s'' e values hrun hcomma hrest ih =>
    have hmode : s'.inCase = true ↔
        s.inCase = true ∧ ¬ ReadsCase n (grammar n).operand s := by
      apply Production.operand.mode s
      rw [hrun]
      rfl
    rw [ih, s'.advanced_inCase, hmode, List.forall_mem_cons, and_assoc]

/-- Every value with a comma behind it takes a token. -/
theorem Grammar.ReadsValues.length_le {values : List (State × Expr)}
    (h : (grammar n).ReadsValues s values s') (hs : s.Ended) :
    values.length ≤ s.pending := by
  induction h with
  | nil s => exact Nat.zero_le _
  | @cons s s' s'' e values hrun hcomma hrest ih =>
    have hpass : listPass (grammar n).operand [] s = .ok (.again [e]) s'.advanced := by
      unfold listPass
      rw [bind_ok hrun, bind_ok ((takeComma_eq s').trans (if_pos hcomma))]
      rfl
    have hconsumes : s.Consumes s'.advanced :=
      parsing_ends.2.2 n .caseValues s [] _ _ hs hpass
    have hlt := hconsumes.pending_lt hs
    have hle := ih (hs.forward hconsumes.toForward)
    rw [List.length_cons]
    omega

/-- A list of values is read value by value, and ends behind the one without a comma. -/
theorem Grammar.ReadsValues.iterate {values : List (State × Expr)} {e : Expr} {s'' : State}
    (h : g.ReadsValues s values s') (hlast : g.operand s' = .ok e s'')
    (hcomma : s''.next.kind ≠ .comma) (fuel : List Token) (hfuel : values.length < fuel.length)
    (items : List Expr) : iterate (listPass g.operand) fuel items s =
      .ok (items.reverse ++ values.map Prod.snd ++ [e]) s'' := by
  induction h generalizing fuel items with
  | nil s =>
    have hpass : listPass g.operand items s = .ok (.done (e :: items).reverse) s'' := by
      unfold listPass
      rw [bind_ok hlast, bind_ok ((takeComma_eq s'').trans (if_neg hcomma))]
      rfl
    cases fuel with
    | nil => cases hfuel
    | cons t fuel =>
      rw [iterate_of_done hpass]
      simp
  | @cons s s' _ e' values hrun hnext hrest ih =>
    have hpass : listPass g.operand items s = .ok (.again (e' :: items)) s'.advanced := by
      unfold listPass
      rw [bind_ok hrun, bind_ok ((takeComma_eq s').trans (if_pos hnext))]
      rfl
    cases fuel with
    | nil => cases hfuel
    | cons t fuel =>
      rw [iterate_of_again hpass, ih hlast fuel (by simpa using hfuel)]
      simp

/-- The name behind the current token. -/
def State.nextName (s : State) : Name :=
  { text := s.next.text, loc := locationOf s.advanced s.next }

theorem operandHere_of_ident (h : s.current.kind = .ident) :
    g.operandHere s = g.nameOrRecord s := by
  obtain ⟨_, _, ⟨kind, _, _, _, _⟩, _, _, _, _, _⟩ := s
  obtain rfl : kind = .ident := h
  rfl

/-- A name in front of a brace is that name, or that of a record. -/
theorem nameOrRecord_of_brace (h : s.next.kind = .lbrace) : g.nameOrRecord s =
    if s.inCase = true then
      .ok (.name { text := s.current.text, loc := locationOf s s.current }) s
    else g.recordBehind { text := s.current.text, loc := locationOf s s.current } s := by
  change (if (!(s.next.kind == .lbrace) || s.inCase) = true then _ else _ : Parser Expr) s = _
  rw [h, beq_self_eq_true, Bool.not_true, Bool.false_or]
  split
  · rfl
  · rfl

/-- No operator is in front of a brace. -/
theorem operators_of_brace (h : s.next.kind = .lbrace) (precedence : Precedence) (e : Expr) :
    repeated (g.operatorPass precedence) e s = .ok e s := by
  have hpass : g.operatorPass precedence e s = .ok (.done e) s := by
    change (if s.next.kind ≠ .semicolon ∧ precedence.level <
      (Precedence.ofKind s.next.kind).level then _ else _ : Parser (Pass Expr Expr)) s = _
    rw [h, if_neg fun hbinds => Nat.not_lt_zero _ hbinds.2]
    rfl
  exact iterate_of_done hpass _ _

theorem operand_eq (s : State) : (grammar (n + 1)).operand s =
    ((grammar n).operandHere >>= fun first =>
      repeated ((grammar n).operatorPass .lowest) first) s.advanced := by
  change (Parser.advance >>= fun _ => (grammar n).expressionHere .lowest) s = _
  rw [bind_ok (advance_eq s), Grammar.expressionHere_eq]

section

variable (hname : s.next.kind = .ident) (hbrace : s.advanced.next.kind = .lbrace)

include hname hbrace

/-- What is read of a name in front of a brace goes by the mode. -/
theorem operandHere_of_brace : g.operandHere s.advanced =
    if s.inCase = true then .ok (.name s.nextName) s.advanced
    else g.recordBehind s.nextName s.advanced := by
  have hcurrent : s.advanced.current = s.next := s.advanced_current
  rw [operandHere_of_ident (hcurrent ▸ hname), nameOrRecord_of_brace hbrace, hcurrent,
    s.advanced_inCase]
  rfl

theorem operand_of_name_inCase (hmode : s.inCase = true) :
    (grammar (n + 1)).operand s = .ok (.name s.nextName) s.advanced := by
  have hfirst := operandHere_of_brace (g := grammar n) hname hbrace
  rw [if_pos hmode] at hfirst
  rw [operand_eq, bind_ok hfirst]
  exact operators_of_brace hbrace .lowest _

theorem operand_of_name_outside (hmode : s.inCase = false) :
    (grammar (n + 1)).operand s = (do
      let first ← (grammar n).recordBehind s.nextName
      repeated ((grammar n).operatorPass .lowest) first) s.advanced := by
  have hfirst := operandHere_of_brace (g := grammar n) hname hbrace
  rw [if_neg (by simp [hmode])] at hfirst
  rw [operand_eq, bind_eq, bind_eq, hfirst]

end

/-- The name is the last value of its case, and what follows is the body. -/
theorem caseHere_of_name {start : State} {values : List (State × Expr)} (hs : start.Ended)
    (h : (grammar (n + 1)).ReadsValues { start with inCase := true } values s)
    (hname : s.next.kind = .ident) (hbrace : s.advanced.next.kind = .lbrace)
    (hmode : s.inCase = true) : (grammar (n + 1)).caseHere start =
      (grammar (n + 1)).caseBody (locationOf start start.current)
        (values.map Prod.snd ++ [.name s.nextName]) { s.advanced with inCase := false } := by
  have hbehind : s.advanced.next.kind ≠ .comma := by
    rw [hbrace]
    decide
  have hlength := h.length_le (hs.congr rfl)
  have hlist : commaList (grammar (n + 1)).operand { start with inCase := true } =
      .ok (values.map Prod.snd ++ [.name s.nextName]) s.advanced := by
    have hpasses := (({ start with inCase := true } : State)).pending_lt_passes
    exact h.iterate (operand_of_name_inCase hname hbrace hmode) hbehind _
      (hlength.trans_lt hpasses) []
  have hvalues : inCaseValues (commaList (grammar (n + 1)).operand) start =
      .ok (values.map Prod.snd ++ [.name s.nextName]) { s.advanced with inCase := false } := by
    unfold Parser.inCaseValues
    rw [hlist]
  have hcolon : Grammar.skipColon { s.advanced with inCase := false } =
      .ok () { s.advanced with inCase := false } := by
    change (if (s.advanced.next.kind == .colon) = true then Parser.advance else Pure.pure () :
      Parser Unit) _ = _
    rw [hbrace]
    rfl
  change (inCaseValues (commaList (grammar (n + 1)).operand) >>= fun values =>
    Grammar.skipColon >>= fun _ => _) start = _
  rw [bind_ok hvalues, bind_ok hcolon]
  rfl

end Parser

open Script.Parser

/-- The mode for the values of a case is never turned on behind a production, and it is
turned off exactly if the production has read the values of a case.  In a list of values a
name in front of a brace is therefore the last value, and the brace opens the body, if no
value in front of it contains a case; if one does, the name is read as that of a record. -/
theorem case_mode_lasts_to_inner_case (n : Nat) :
    (∀ {α : Type} {p : Parser α}, Production (grammar n) p → ∀ s, ∀ s' ∈ (p s).state?,
      s'.inCase = true ↔ s.inCase = true ∧ ¬ ReadsCase n p s) ∧
    ∀ start values s, start.Ended →
      (grammar (n + 1)).ReadsValues { start with inCase := true } values s →
      s.next.kind = .ident → s.advanced.next.kind = .lbrace →
      ((∀ v ∈ values, ¬ ReadsCase (n + 1) (grammar (n + 1)).operand v.1) →
        (grammar (n + 1)).caseHere start =
          (grammar (n + 1)).caseBody (locationOf start start.current)
            (values.map Prod.snd ++ [.name s.nextName]) { s.advanced with inCase := false }) ∧
      ((∃ v ∈ values, ReadsCase (n + 1) (grammar (n + 1)).operand v.1) →
        (grammar (n + 1)).operand s = (do
          let first ← (grammar n).recordBehind s.nextName
          repeated ((grammar n).operatorPass .lowest) first) s.advanced) := by
  refine ⟨fun hproduction s => hproduction.mode s,
    fun start values s hs h hname hbrace => ⟨fun hnone => ?_, fun ⟨v, hv, hreads⟩ => ?_⟩⟩
  · exact caseHere_of_name hs h hname hbrace (h.mode.mpr ⟨rfl, hnone⟩)
  · have hmode : s.inCase = false :=
      Bool.eq_false_iff.mpr fun hon => (h.mode.mp hon).2 v hv hreads
    exact operand_of_name_outside hname hbrace hmode

/-! ### Values behind a name and behind a case -/

/-- The first `case` of a text that starts with `switch (x) { case`. -/
def firstCase (source : String) : State :=
  (startOf "" source).advanced.advanced.advanced.advanced.advanced

theorem ended_firstCase (source : String) : (firstCase source).Ended :=
  (over_startOf "" source).ended.advanced.advanced.advanced.advanced.advanced

/-- The values of the case are two names. -/
def nameBehindName : String := "switch (x) \x7b case a, b \x7b \x7d \x7d"

/-- The values of the case are a `switch` with a case, and a name. -/
def nameBehindCase : String :=
  "switch (x) \x7b case switch (1) \x7b case 1 \x7b \x7d \x7d, b \x7b \x7d \x7d"

/-- The parser succeeds at a state that passes a check. -/
def Parser.Outcome.reaches {α : Type} (check : State → Bool) : Outcome α → Bool
  | .ok _ s => check s
  | .failed _ | .exhausted => false

theorem Parser.Outcome.exists_of_reaches {α : Type} {check : State → Bool} {o : Outcome α}
    (h : o.reaches check = true) : ∃ a s, o = .ok a s ∧ check s = true := by
  cases o with
  | ok a s => exact ⟨a, s, rfl, h⟩
  | failed s => cases h
  | exhausted => cases h

/-- A comma, a name and a brace are next, and the mode is the given one. -/
def Parser.State.commaNameBrace (mode : Bool) (s : State) : Bool :=
  s.next.kind == .comma && s.advanced.next.kind == .ident &&
    s.advanced.advanced.next.kind == .lbrace && s.inCase == mode

theorem value_nameBehindName : ∃ e s,
    (grammar 1).operand { firstCase nameBehindName with inCase := true } = .ok e s ∧
    s.commaNameBrace true = true :=
  Outcome.exists_of_reaches (by decide +kernel)

theorem value_nameBehindCase : ∃ e s,
    (grammar 7).operand { firstCase nameBehindCase with inCase := true } = .ok e s ∧
    s.commaNameBrace false = true :=
  Outcome.exists_of_reaches (by decide +kernel)

/-- The first of two names leaves the mode on, and the second is the last value.  A `switch`
with a case turns it off, and the name behind it is read as that of a record. -/
theorem case_mode_lasts_nameBehindName :
    (∃ (e : Expr) (s : State), (grammar 1).caseHere (firstCase nameBehindName) =
      (grammar 1).caseBody
        (locationOf (firstCase nameBehindName) (firstCase nameBehindName).current)
        [e, .name s.nextName] { s.advanced with inCase := false }) ∧
    ∃ s : State, (grammar 7).operand s = (do
      let first ← (grammar 6).recordBehind s.nextName
      repeated ((grammar 6).operatorPass .lowest) first) s.advanced := by
  constructor
  · obtain ⟨e, s, hrun, hs⟩ := value_nameBehindName
    simp only [State.commaNameBrace, Bool.and_eq_true, beq_iff_eq] at hs
    obtain ⟨⟨⟨hcomma, hname⟩, hbrace⟩, hmode⟩ := hs
    have hnone :=
      (((case_mode_lasts_to_inner_case 1).1 .operand _ s (by rw [hrun]; rfl)).mp hmode).2
    have hvalues := Grammar.ReadsValues.cons hrun hcomma (.nil s.advanced)
    obtain ⟨hbody, -⟩ := (case_mode_lasts_to_inner_case 0).2 (firstCase nameBehindName) _
      s.advanced (ended_firstCase nameBehindName) hvalues hname hbrace
    exact ⟨e, s.advanced, hbody (by simpa using hnone)⟩
  · obtain ⟨e, s, hrun, hs⟩ := value_nameBehindCase
    simp only [State.commaNameBrace, Bool.and_eq_true, beq_iff_eq] at hs
    obtain ⟨⟨⟨hcomma, hname⟩, hbrace⟩, hmode⟩ := hs
    have hreads :
        ReadsCase 7 (grammar 7).operand { firstCase nameBehindCase with inCase := true } := by
      by_contra hnone
      have hon := ((case_mode_lasts_to_inner_case 7).1 .operand _ s (by rw [hrun]; rfl)).mpr
        ⟨rfl, hnone⟩
      rw [hmode] at hon
      cases hon
    have hvalues := Grammar.ReadsValues.cons hrun hcomma (.nil s.advanced)
    obtain ⟨-, hrecord⟩ := (case_mode_lasts_to_inner_case 6).2 (firstCase nameBehindCase) _
      s.advanced (ended_firstCase nameBehindCase) hvalues hname hbrace
    exact ⟨s.advanced, hrecord ⟨_, List.mem_singleton_self _, hreads⟩⟩

/-- A production that reads a `switch` among the values of a case turns the mode off, and the
name behind it takes the brace of the body, so that the text is refused. -/
theorem case_mode_lost_nameBehindCase :
    (¬ ∀ n {α : Type} {p : Parser α}, Production (grammar n) p → ∀ s, ∀ s' ∈ (p s).state?,
      s'.inCase = s.inCase) ∧
    ∀ q, parse "" nameBehindCase ≠ .ok q := by
  constructor
  · intro hscoped
    obtain ⟨e, s, hrun, hs⟩ := value_nameBehindCase
    simp only [State.commaNameBrace, Bool.and_eq_true, beq_iff_eq] at hs
    have hmode := hscoped 7 .operand _ s (by rw [hrun]; rfl)
    rw [hs.2] at hmode
    cases hmode
  · have hrefused : (parse "" nameBehindCase).toBool = false := by
      decide +kernel
    intro q hq
    rw [hq] at hrefused
    cases hrefused

end Script
