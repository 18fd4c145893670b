import Script.Proofs.Syntax.Weaving

/-!
# No failure is silent

A production that fails has recorded a problem, with the only exception of a statement
in front of a lone semicolon.  Each problem is recorded twice, in one line and as a
report, and nothing that has been recorded is taken back.  So a text is accepted if no
call of a production has failed while it was read, except at lone semicolons.
-/

namespace Script

namespace Parser

variable {α β σ : Type}

/-! ### What is recorded -/

/-- What has been recorded on the way from one state to another. -/
structure State.Records (s : State) (reports : List Diagnostic) (s' : State) : Prop where
  errors : s'.errors.toList = s.errors.toList ++ reports.map Diagnostic.line
  diagnostics : s'.diagnostics.toList =
    s.diagnostics.toList ++ reports.map (·.attach s.source)
  source : s'.source = s.source
  file : s'.file = s.file
  located : ∀ d ∈ reports, ∃ loc, d.location? = some loc

namespace State

variable {s s' s'' : State} {reports reports' : List Diagnostic}

theorem records_nil (herrors : s'.errors = s.errors)
    (hdiagnostics : s'.diagnostics = s.diagnostics) (hsource : s'.source = s.source)
    (hfile : s'.file = s.file) : s.Records [] s' :=
  ⟨by simp [herrors], by simp [hdiagnostics], hsource, hfile,
    fun _ hd => absurd hd List.not_mem_nil⟩

theorem Records.refl (s : State) : s.Records [] s := records_nil rfl rfl rfl rfl

theorem Records.trans (h : s.Records reports s') (h' : s'.Records reports' s'') :
    s.Records (reports ++ reports') s'' := by
  refine ⟨?_, ?_, h'.source.trans h.source, h'.file.trans h.file, fun d hd => ?_⟩
  · rw [h'.errors, h.errors, List.map_append, List.append_assoc]
  · rw [h'.diagnostics, h.diagnostics, h.source, List.map_append, List.append_assoc]
  · rcases List.mem_append.mp hd with hd | hd
    · exact h.located d hd
    · exact h'.located d hd

theorem records_advanced (s : State) : s.Records [] s.advanced := by
  unfold State.advanced
  split
  · exact records_nil rfl rfl rfl rfl
  · exact records_nil rfl rfl rfl rfl

theorem records_record (s : State) (problem : Problem) (loc : Location) :
    s.Records [problem.report loc] (s.record (problem.report loc)) := by
  refine ⟨Array.toList_push, Array.toList_push, rfl, rfl, fun d hd => ?_⟩
  obtain rfl := List.mem_singleton.mp hd
  exact ⟨loc, problem.location?_report loc⟩

end State

/-! ### Calls -/

/-- A call of a production. -/
inductive Call : Type 1 where
  | statement (g : Grammar) (start : State)
  | production {α : Type} {g : Grammar} {p : Parser α} (h : Production g p)
      (start : State)

def Outcome.IsFailed : Outcome α → Prop
  | .failed _ => True
  | _ => False

namespace Call

def Fails : Call → Prop
  | statement g start => (g.statement start).IsFailed
  | @production _ _ p _ start => (p start).IsFailed

def AtSemicolon : Call → Prop
  | statement _ start => start.current.kind = .semicolon
  | production .. => False

theorem fails_statement {g : Grammar} {s : State} :
    (statement g s).Fails ↔ (g.statement s).IsFailed := Iff.rfl

/-- Of the calls that are made none fails, except at a lone semicolon. -/
def Fine (made : Call → Prop) : Prop := ∀ c, made c → c.Fails → c.AtSemicolon

variable {made made' : Call → Prop}

theorem fine_none : Fine fun _ => False := fun _ h => h.elim

theorem fine_or : Fine (fun c => made c ∨ made' c) ↔ Fine made ∧ Fine made' :=
  ⟨fun h => ⟨fun c hc => h c (Or.inl hc), fun c hc => h c (Or.inr hc)⟩,
    fun h c hc => hc.elim (h.1 c) (h.2 c)⟩

/-- A call that does not fail is fine. -/
theorem fine_or_of_not_fails {c : Call} (hc : ¬ c.Fails) :
    Fine (fun c' => c' = c ∨ made c') ↔ Fine made := by
  rw [fine_or]
  refine ⟨And.right, fun h => ⟨?_, h⟩⟩
  rintro _ rfl hfails
  exact absurd hfails hc

end Call

/-- The calls that are made in the productions of a grammar. -/
structure Calls where
  expression : Precedence → State → Call → Prop
  statement : State → Call → Prop
  branch : State → Call → Prop
  type : State → Call → Prop

/-- The calls that are made in the passes of a loop. -/
def MadeInPasses (body : σ → Parser (Pass σ β)) (made : σ → State → Call → Prop) :
    List Token → σ → State → Call → Prop
  | [], _, _, _ => False
  | _ :: fuel, state, s, c => made state s c ∨
    ∃ state' s', body state s = .ok (.again state') s' ∧
      MadeInPasses body made fuel state' s' c

/-- The calls that a parser makes from a state. -/
def Weave.Makes (g : Grammar) (calls : Calls) :
    {α : Type} → {p : Grammar → Parser α} → Weave p → State → Call → Prop
  | _, _, .look _, _, _ => False
  | _, _, .advance, _, _ => False
  | _, _, .fail _ _, _, _ => False
  | _, _, @Weave.bind _ _ p _ first next, s, c => first.Makes g calls s c ∨
    ∃ a s', p g s = .ok a s' ∧ (next a).Makes g calls s' c
  | _, _, @Weave.ite _ b _ _ _ yes no, s, c =>
    b ∧ yes.Makes g calls s c ∨ ¬ b ∧ no.Makes g calls s c
  | _, _, @Weave.repeated _ _ body pass state, s, c =>
    MadeInPasses (fun state => body state g) (fun state => (pass state).Makes g calls)
      (s.current :: s.current :: s.next :: s.rest) state s c
  | _, _, .inCaseValues w, s, c => w.Makes g calls { s with inCase := true } c
  | _, _, .statement, s, c => c = .statement g s ∨ calls.statement s c
  | _, _, .expression precedence, s, c => calls.expression precedence s c
  | _, _, .branch, s, c => calls.branch s c
  | _, _, .type, s, c => calls.type s c
  | _, _, .call h w, s, c => c = .production (h g) s ∨ w.Makes g calls s c

/-- The calls that are made in `grammar n`. -/
def callsIn : Nat → Calls
  | 0 =>
    { expression := fun _ _ _ => False
      statement := fun _ _ => False
      branch := fun _ _ => False
      type := fun _ _ => False }
  | n + 1 =>
    { expression := fun precedence =>
        (Weave.expressionHere precedence).Makes (grammar n) (callsIn n)
      statement := fun s c => ∃ hkind : s.current.kind ≠ .semicolon,
        (Weave.statementFrom s.current.kind hkind).Makes (grammar n) (callsIn n) s c
      branch := Weave.branchHere.Makes (grammar n) (callsIn n)
      type := Weave.typeHere.Makes (grammar n) (callsIn n) }

/-! ### Every failure is recorded -/

/-- What a parser tells about its failures: if it fails itself, then it has recorded
a problem, and otherwise if a call in it has failed. -/
def Outcome.Tells (s : State) (made : Call → Prop) : Outcome α → Prop
  | .ok _ s' => ∃ reports, s.Records reports s' ∧ (reports = [] ↔ Call.Fine made)
  | .failed s' => ∃ reports, s.Records reports s' ∧ reports ≠ []
  | .exhausted => True

/-- The same of a statement, which is silent at a lone semicolon. -/
def Outcome.TellsOfStatement (s : State) (made : Call → Prop) : Outcome α → Prop
  | .failed s' => ∃ reports, s.Records reports s' ∧
      (reports = [] ↔ s.current.kind = .semicolon)
  | o => o.Tells s made

/-- The productions of a grammar tell about their failures. -/
structure Grammar.Tells (g : Grammar) (calls : Calls) : Prop where
  expression : ∀ precedence s,
    (g.expression precedence s).Tells s (calls.expression precedence s)
  statement : ∀ s, (g.statement s).TellsOfStatement s (calls.statement s)
  semicolon : ∀ s, s.current.kind = .semicolon → ∀ c, ¬ calls.statement s c
  branch : ∀ s, (g.branch s).Tells s (calls.branch s)
  type : ∀ s, (g.type s).Tells s (calls.type s)

variable {g : Grammar} {calls : Calls} {s s' : State} {made made' : Call → Prop}

/-- What is told behind a state at which nothing had failed, or something. -/
theorem Outcome.Tells.after {reports : List Diagnostic} {o : Outcome α}
    (hrecords : s.Records reports s') (hmade : reports = [] ↔ Call.Fine made)
    (ho : o.Tells s' made') : o.Tells s fun c => made c ∨ made' c := by
  cases o with
  | ok a s'' =>
    obtain ⟨reports', hrecords', hmade'⟩ := ho
    refine ⟨reports ++ reports', hrecords.trans hrecords', ?_⟩
    rw [List.append_eq_nil_iff, hmade, hmade', Call.fine_or]
  | failed s'' =>
    obtain ⟨reports', hrecords', hne⟩ := ho
    exact ⟨reports ++ reports', hrecords.trans hrecords',
      fun h => hne (List.append_eq_nil_iff.mp h).2⟩
  | exhausted => trivial

theorem Outcome.Tells.congr {o : Outcome α} (h : o.Tells s made)
    (hmade : ∀ c, made c ↔ made' c) : o.Tells s made' := by
  obtain rfl : made = made' := funext fun c => propext (hmade c)
  exact h

theorem tells_quiet {a : α} (h : s.Records [] s') :
    (Outcome.ok a s').Tells s fun _ => False :=
  ⟨[], h, iff_of_true rfl Call.fine_none⟩

theorem tells_bind {p : Parser α} {f : α → Parser β} {made : State → Call → Prop}
    {made' : α → State → Call → Prop} (hp : (p s).Tells s (made s))
    (hf : ∀ a s', (f a s').Tells s' (made' a s')) :
    ((p >>= f) s).Tells s fun c => made s c ∨ ∃ a s', p s = .ok a s' ∧ made' a s' c := by
  rw [bind_eq]
  cases hrun : p s with
  | ok a s' =>
    rw [hrun] at hp
    obtain ⟨reports, hrecords, hmade⟩ := hp
    refine ((hf a s').after hrecords hmade).congr fun c => or_congr_right ?_
    refine ⟨fun h => ⟨a, s', rfl, h⟩, ?_⟩
    rintro ⟨_, _, heq, h⟩
    cases heq
    exact h
  | failed s' =>
    rw [hrun] at hp
    exact hp
  | exhausted => trivial

theorem tells_ite {b : Prop} [Decidable b] {p q : Parser α} (hyes : (p s).Tells s made)
    (hno : (q s).Tells s made') :
    ((if b then p else q) s).Tells s fun c => b ∧ made c ∨ ¬ b ∧ made' c := by
  by_cases hb : b
  · rw [if_pos hb]
    exact hyes.congr fun c => by simp [hb]
  · rw [if_neg hb]
    exact hno.congr fun c => by simp [hb]

/-- What every pass tells, the loop tells. -/
theorem tells_iterate {body : σ → Parser (Pass σ β)} {made : σ → State → Call → Prop}
    (hbody : ∀ state s, (body state s).Tells s (made state s)) (fuel : List Token)
    (state : σ) (s : State) :
    (iterate body fuel state s).Tells s (MadeInPasses body made fuel state s) := by
  induction fuel generalizing state s with
  | nil => trivial
  | cons t fuel ih =>
    have hpass := hbody state s
    unfold iterate
    cases hrun : body state s with
    | ok pass s' =>
      rw [hrun] at hpass
      obtain ⟨reports, hrecords, hmade⟩ := hpass
      cases pass with
      | again state' =>
        refine ((ih state' s').after hrecords hmade).congr fun c => or_congr_right ?_
        refine ⟨fun h => ⟨state', s', hrun, h⟩, ?_⟩
        rintro ⟨_, _, heq, h⟩
        cases hrun.symm.trans heq
        exact h
      | done result =>
        have hlast : ∀ c, MadeInPasses body made (t :: fuel) state s c ↔ made state s c := by
          intro c
          refine or_iff_left ?_
          rintro ⟨_, _, heq, -⟩
          cases hrun.symm.trans heq
        exact ⟨reports, hrecords, hmade.trans (forall_congr' fun c =>
          imp_congr_left (hlast c).symm)⟩
    | failed s' =>
      rw [hrun] at hpass
      exact hpass
    | exhausted => trivial

theorem tells_inCaseValues {p : Parser α}
    (hp : (p { s with inCase := true }).Tells { s with inCase := true } made) :
    (inCaseValues p s).Tells s made := by
  unfold Parser.inCaseValues
  cases hrun : p { s with inCase := true } with
  | ok a s' =>
    rw [hrun] at hp
    obtain ⟨reports, ⟨herrors, hdiagnostics, hsource, hfile, hlocated⟩, hmade⟩ := hp
    exact ⟨reports, ⟨herrors, hdiagnostics, hsource, hfile, hlocated⟩, hmade⟩
  | failed s' =>
    rw [hrun] at hp
    obtain ⟨reports, ⟨herrors, hdiagnostics, hsource, hfile, hlocated⟩, hne⟩ := hp
    exact ⟨reports, ⟨herrors, hdiagnostics, hsource, hfile, hlocated⟩, hne⟩
  | exhausted => trivial

/-- A statement that fails is left out, but not forgotten. -/
theorem tells_optional_statement (hg : g.Tells calls) (s : State) :
    (optional g.statement s).Tells s fun c => c = .statement g s ∨ calls.statement s c := by
  have hstatement := hg.statement s
  unfold Parser.optional
  cases hrun : g.statement s with
  | ok a s' =>
    rw [hrun] at hstatement
    obtain ⟨reports, hrecords, hmade⟩ := hstatement
    have hsucceeds : ¬ (Call.statement g s).Fails := by
      rw [Call.fails_statement, hrun]
      exact id
    exact ⟨reports, hrecords, hmade.trans (Call.fine_or_of_not_fails hsucceeds).symm⟩
  | failed s' =>
    rw [hrun] at hstatement
    obtain ⟨reports, hrecords, hsilent⟩ := hstatement
    have hfails : (Call.statement g s).Fails := by
      rw [Call.fails_statement, hrun]
      trivial
    refine ⟨reports, hrecords, hsilent.trans ⟨fun hkind c hc _ => ?_, fun hfine => ?_⟩⟩
    · rcases hc with rfl | hc
      · exact hkind
      · exact absurd hc (hg.semicolon s hkind c)
    · exact hfine _ (Or.inl rfl) hfails
  | exhausted => trivial

theorem Outcome.Tells.call {o : Outcome α} {c : Call} (h : o.Tells s made)
    (hc : c.Fails → o.IsFailed) : o.Tells s fun c' => c' = c ∨ made c' := by
  cases o with
  | ok a s' =>
    obtain ⟨reports, hrecords, hmade⟩ := h
    exact ⟨reports, hrecords, hmade.trans (Call.fine_or_of_not_fails hc).symm⟩
  | failed s' => exact h
  | exhausted => trivial

/-- Every parser that is put together of steps and calls tells about its failures. -/
theorem Weave.tells (hg : g.Tells calls) {p : Grammar → Parser α} (w : Weave p)
    (s : State) : (p g s).Tells s (w.Makes g calls s) := by
  induction w generalizing s with
  | look f => exact tells_quiet (a := f s) (.refl s)
  | advance =>
    have hquiet : (Parser.advance s).Tells s fun _ => False := by
      rw [advance_eq]
      exact tells_quiet s.records_advanced
    exact hquiet
  | fail problem loc => exact ⟨_, s.records_record _ _, by simp⟩
  | bind first next ihfirst ihnext => exact tells_bind (ihfirst s) fun a s' => ihnext a s'
  | ite b yes no ihyes ihno => exact tells_ite (ihyes s) (ihno s)
  | repeated pass state ih =>
    exact tells_iterate (fun state s => ih state s) _ state s
  | inCaseValues w ih => exact tells_inCaseValues (ih _)
  | statement => exact tells_optional_statement hg s
  | expression precedence => exact hg.expression precedence s
  | branch => exact hg.branch s
  | type => exact hg.type s
  | call h w ih => exact (ih s).call id

theorem Outcome.Tells.ofStatement {o : Outcome α} (h : o.Tells s made)
    (hkind : s.current.kind ≠ .semicolon) : o.TellsOfStatement s made := by
  cases o with
  | ok a s' => exact h
  | failed s' =>
    obtain ⟨reports, hrecords, hne⟩ := h
    exact ⟨reports, hrecords, iff_of_false hne hkind⟩
  | exhausted => trivial

theorem tellsOfStatement_statementHere (hg : g.Tells calls) (s : State) :
    (g.statementHere s).TellsOfStatement s fun c =>
      ∃ hkind : s.current.kind ≠ .semicolon,
        (Weave.statementFrom s.current.kind hkind).Makes g calls s c := by
  rw [Grammar.statementHere_eq]
  by_cases hkind : s.current.kind = .semicolon
  · rw [hkind]
    exact ⟨[], .refl s, iff_of_true rfl hkind⟩
  · have htells := (Weave.statementFrom _ hkind).tells hg s
    exact (htells.congr fun c => ⟨fun h => ⟨hkind, h⟩, fun ⟨_, h⟩ => h⟩).ofStatement hkind

theorem grammar_tells (n : Nat) : (grammar n).Tells (callsIn n) := by
  induction n with
  | zero =>
    exact ⟨fun _ _ => trivial, fun _ => trivial, fun _ _ _ => id, fun _ => trivial,
      fun _ => trivial⟩
  | succ n ih =>
    refine ⟨fun precedence s => (Weave.expressionHere precedence).tells ih s,
      tellsOfStatement_statementHere ih, ?_, Weave.branchHere.tells ih,
      Weave.typeHere.tells ih⟩
    rintro s hkind c ⟨hne, -⟩
    exact hne hkind

/-! ### Productions -/

/-- What a production does that is not silent when it fails. -/
def Outcome.Loud (s : State) : Outcome α → Prop
  | .ok _ s' => ∃ reports, s.Records reports s'
  | .failed s' => ∃ reports, s.Records reports s' ∧ reports ≠ []
  | .exhausted => True

theorem Outcome.Tells.loud {o : Outcome α} (h : o.Tells s made) : o.Loud s := by
  cases o with
  | ok a s' =>
    obtain ⟨reports, hrecords, -⟩ := h
    exact ⟨reports, hrecords⟩
  | failed s' => exact h
  | exhausted => trivial

theorem loud_statementBody (hg : g.Tells calls) (hkind : s.current.kind ≠ .semicolon) :
    (g.statementBody s).Loud s := by
  rw [Grammar.statementBody_eq]
  exact ((Weave.statementOf _ hkind).tells hg s).loud

theorem loud_statementHere (hg : g.Tells calls) (hkind : s.current.kind ≠ .semicolon) :
    (g.statementHere s).Loud s := by
  rw [Grammar.statementHere_eq]
  exact ((Weave.statementFrom _ hkind).tells hg s).loud

theorem Outcome.TellsOfStatement.loud {o : Outcome α} (h : o.TellsOfStatement s made)
    (hkind : s.current.kind ≠ .semicolon) : o.Loud s := by
  cases o with
  | ok a s' => exact Outcome.Tells.loud h
  | failed s' =>
    obtain ⟨reports, hrecords, hsilent⟩ := h
    exact ⟨reports, hrecords, fun h => hkind (hsilent.mp h)⟩
  | exhausted => trivial

/-- Only the reading of a statement can fail silently, and only at a lone semicolon. -/
theorem Production.loud {p : Parser α} (h : Production g p) (hg : g.Tells calls)
    (s : State) : ReadsStatement g p ∧ s.current.kind = .semicolon ∨ (p s).Loud s := by
  rcases h.readsStatement_or_woven with hreads | ⟨p', ⟨w⟩, rfl⟩
  · by_cases hkind : s.current.kind = .semicolon
    · exact Or.inl ⟨hreads, hkind⟩
    · refine Or.inr ?_
      cases hreads with
      | statement => exact (hg.statement s).loud hkind
      | statementHere => exact loud_statementHere hg hkind
      | statementBody => exact loud_statementBody hg hkind
  · exact Or.inr (w.tells hg s).loud

/-! ### Source texts -/

/-- The bound on nested productions that a text is parsed with. -/
def boundOf (source : String) : Nat := nestingBound (tokenize source).length

/-- The state in front of a text. -/
def startOf (file source : String) : State := .initial file source (tokenize source)

/-- The calls that are made while a text is parsed. -/
def Called (file source : String) : Call → Prop :=
  Weave.program.Makes (grammar (boundOf source)) (callsIn (boundOf source))
    (startOf file source)

/-- The errors and the diagnostics belong together, one by one. -/
structure State.Paired (s : State) (source : String) : Prop where
  size : s.errors.size = s.diagnostics.size
  errors : ∀ i (h : i < s.errors.size) (h' : i < s.diagnostics.size), ∃ loc,
    s.diagnostics[i].location? = some loc ∧
      s.errors[i] = loc.text ++ ": " ++ s.diagnostics[i].message
  source : ∀ d ∈ s.diagnostics, d.source = some source

theorem Outcome.Loud.failed {s s' : State} {p : Parser α} (h : (p s).Loud s)
    (hrun : p s = .failed s') :
    ∃ new, new ≠ [] ∧ s'.errors.toList = s.errors.toList ++ new := by
  rw [hrun] at h
  obtain ⟨reports, hrecords, hne⟩ := h
  exact ⟨reports.map Diagnostic.line, by simpa using hne, hrecords.errors⟩

/-- A line and a report of each problem are recorded together. -/
theorem State.Records.paired {file source : String} {reports : List Diagnostic}
    {s : State} (h : (startOf file source).Records reports s) : s.Paired source := by
  have herrors : s.errors = (reports.map Diagnostic.line).toArray :=
    Array.toList_inj.mp h.errors
  have hdiagnostics : s.diagnostics = (reports.map (·.attach source)).toArray :=
    Array.toList_inj.mp h.diagnostics
  refine ⟨by simp [herrors, hdiagnostics], fun i hi hi' => ?_, fun d hd => ?_⟩
  · have hlength : i < reports.length := by simpa [herrors] using hi
    obtain ⟨loc, hloc⟩ := h.located reports[i] (List.getElem_mem hlength)
    refine ⟨loc, ?_, ?_⟩
    · simpa [hdiagnostics, Diagnostic.location?_attach] using hloc
    · simp [herrors, hdiagnostics, Diagnostic.line, hloc, Diagnostic.attach]
  · obtain ⟨d, -, rfl⟩ := List.mem_map.mp (by simpa [hdiagnostics] using hd)
    rfl

theorem exists_program (file source : String) : ∃ p s,
    program (grammar (boundOf source)) (startOf file source) = .ok p s := by
  have hends := endsOnce_tokenize source
  have hle : (startOf file source).pending ≤ (tokenize source).length :=
    pending_initial_le hends
  have hbound : nestingBound (startOf file source).pending ≤ boundOf source := by
    unfold boundOf nestingBound
    omega
  obtain ⟨p, s, hrun, -⟩ := runs_program (ended_initial hends) hbound
  exact ⟨p, s, hrun⟩

/-- A program has been read, and what went wrong has been recorded. -/
theorem exists_records (file source : String) : ∃ p s reports,
    program (grammar (boundOf source)) (startOf file source) = .ok p s ∧
      (startOf file source).Records reports s ∧
      (reports = [] ↔ Call.Fine (Called file source)) := by
  obtain ⟨p, s, hrun⟩ := exists_program file source
  have htells := Weave.program.tells (grammar_tells (boundOf source)) (startOf file source)
  rw [hrun] at htells
  obtain ⟨reports, hrecords, hfine⟩ := htells
  exact ⟨p, s, reports, hrun, hrecords, hfine⟩

/-- A program that has been read is accepted unless an error was recorded. -/
theorem parse_of_program {file source : String} {p : Program} {s : State}
    (hrun : program (grammar (boundOf source)) (startOf file source) = .ok p s) :
    parse file source = if s.errors.isEmpty then .ok p else .error s.failure := by
  unfold boundOf startOf at hrun
  unfold parse
  dsimp only
  rw [hrun]

theorem exists_parse_iff (file source : String) :
    (∃ p, parse file source = .ok p) ↔ Call.Fine (Called file source) := by
  obtain ⟨p, s, reports, hrun, hrecords, hfine⟩ := exists_records file source
  have hempty : s.errors.isEmpty = true ↔ reports = [] := by
    rw [Array.isEmpty_iff, ← Array.toList_eq_nil_iff, hrecords.errors]
    exact List.map_eq_nil_iff
  rw [parse_of_program hrun, ← hfine, ← hempty]
  split
  · next h => exact iff_of_true ⟨p, rfl⟩ h
  · next h => exact iff_of_false nofun h

end Parser

open Script.Parser

/-- No failure is silent.  The errors and the diagnostics of a text belong together, and
every production that fails has recorded an error, unless it is a statement at a lone
semicolon.  So a text is accepted exactly if no call of a production has failed, except at
lone semicolons. -/
theorem no_failure_is_silent :
    (∀ file source, ∃ p s,
      program (grammar (boundOf source)) (startOf file source) = .ok p s ∧
        s.Paired source) ∧
    (∀ n {α : Type} {p : Parser α}, Production (grammar n) p → ∀ s s', p s = .failed s' →
      (∃ new, new ≠ [] ∧ s'.errors.toList = s.errors.toList ++ new) ∨
        ReadsStatement (grammar n) p ∧ s.current.kind = .semicolon) ∧
    ∀ file source, (∃ p, parse file source = .ok p) ↔
      ∀ c, Called file source c → c.Fails → c.AtSemicolon := by
  refine ⟨fun file source => ?_, fun n _ p hproduction s s' hrun => ?_, exists_parse_iff⟩
  · obtain ⟨p, s, reports, hrun, hrecords, -⟩ := exists_records file source
    exact ⟨p, s, hrun, hrecords.paired⟩
  · rcases hproduction.loud (grammar_tells n) s with hsilent | hloud
    · exact Or.inr hsilent
    · exact Or.inl (hloud.failed hrun)

/-- A text with a name and an expression missing. -/
def missingNames : String := "let = 5; let y = );"

/-- Behind the first word of it. -/
def behindLet : State :=
  { file := "", source := missingNames
    current := ⟨.letWord, "let", 1, 1, 4⟩, next := ⟨.assign, "=", 1, 5, 6⟩, rest := [] }

/-- The text is read to its end, the declaration has recorded an error, and some call has
failed because the text is refused. -/
theorem no_failure_is_silent_missingNames :
    (∃ p s, program (grammar (boundOf missingNames)) (startOf "" missingNames) = .ok p s ∧
      s.Paired missingNames) ∧
    (∃ s', (grammar 1).binding false behindLet = .failed s' ∧
      ∃ new, new ≠ [] ∧ s'.errors.toList = behindLet.errors.toList ++ new) ∧
    ∃ c, Called "" missingNames c ∧ c.Fails ∧ ¬ c.AtSemicolon := by
  obtain ⟨hpaired, hfailures, haccepted⟩ := no_failure_is_silent
  refine ⟨hpaired "" missingNames, ⟨_, rfl, ?_⟩, ?_⟩
  · rcases hfailures 1 (.binding false) behindLet _ rfl with hnew | ⟨-, hkind⟩
    · exact hnew
    · cases hkind
  · have hrefused : (parse "" missingNames).toBool = false := by decide +kernel
    refine Classical.byContradiction fun hnone => ?_
    obtain ⟨p, hparse⟩ := (haccepted "" missingNames).mpr fun c hc hfails =>
      Classical.byContradiction fun hc' => hnone ⟨c, hc, hfails, hc'⟩
    rw [hparse] at hrefused
    cases hrefused

end Script
