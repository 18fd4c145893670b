import Script.Proofs.Syntax.Placing

/-!
# The order in which problems are found

A problem is found at the current token or at the one behind it, so that what is found
later does not stand in front of what was found before.  The one exception is an arrow
behind an operand that cannot be its parameters: it is reported at the whole operand, in
which problems may have been found already.
-/

namespace Script

/-- A problem and where it is reported. -/
structure Fault where
  problem : Problem
  loc : Location

namespace Fault

def report (f : Fault) : Diagnostic := f.problem.report f.loc

/-- What is found later starts further behind, or is reported at an operand in which the
other fault stands. -/
def Precedes (f f' : Fault) : Prop :=
  f.loc.start ≤ f'.loc.start ∨
    f'.report.code = .operator ∧ f'.loc.start ≤ f.loc.start ∧ f.loc.start < f'.loc.stop

end Fault

namespace Parser

variable {α β σ : Type} {file : String} {all : List Token} {s s' s'' base : State}
  {faults faults' : List Fault} {last last' : Position}

/-! ### Faults between two states -/

/-- What is found on the way from one state to another, up to a position. -/
structure State.Meets (s : State) (faults : List Fault) (s' : State) (last : Position) :
    Prop where
  forward : s.Forward s'
  records : s.Records (faults.map Fault.report) s'
  ordered : faults.Pairwise Fault.Precedes
  ahead : ∀ f ∈ faults, s.current.start ≤ f.loc.start
  behind : ∀ f ∈ faults, f.loc.start ≤ last

namespace State

theorem Over.before_next_forward (hs : s.Over file all) (h : s.Forward s')
    (hfile : s'.file = s.file) : s.current.start ≤ s'.next.start :=
  (Over.before_forward h hs).1.trans (hs.forward h hfile).before_next.start

theorem meets_nil (hforward : s.Forward s') (hrecords : s.Records [] s') :
    s.Meets [] s' last :=
  ⟨hforward, hrecords, .nil, by simp, by simp⟩

theorem Meets.refl (s : State) : s.Meets [] s last := meets_nil (.refl s) (.refl s)

namespace Meets

theorem stillOver (h : s.Meets faults s' last) (hs : s.Over file all) : s'.Over file all :=
  hs.forward h.forward h.records.file

theorem mono (h : s.Meets faults s' last) (hlast : last ≤ last') :
    s.Meets faults s' last' :=
  ⟨h.forward, h.records, h.ordered, h.ahead, fun f hf => (h.behind f hf).trans hlast⟩

theorem trans (hs : s.Over file all) (h : s.Meets faults s' s'.current.start)
    (h' : s'.Meets faults' s'' last) (hlast : s'.current.start ≤ last) :
    s.Meets (faults ++ faults') s'' last := by
  have hstart := (Over.before_forward h.forward hs).1
  refine ⟨h.forward.trans h'.forward, ?_, ?_, fun f hf => ?_, fun f hf => ?_⟩
  · rw [List.map_append]
    exact h.records.trans h'.records
  · exact List.pairwise_append.mpr ⟨h.ordered, h'.ordered, fun f hf f' hf' =>
      Or.inl ((h.behind f hf).trans (h'.ahead f' hf'))⟩
  · exact (List.mem_append.mp hf).elim (h.ahead f) fun hf => hstart.trans (h'.ahead f hf)
  · exact (List.mem_append.mp hf).elim (fun hf => (h.behind f hf).trans hlast) (h'.behind f)

/-- A step behind the last fault. -/
theorem step (h : s.Meets faults s' last) : s.Meets faults s'.advanced last := by
  refine ⟨h.forward.trans s'.forward_advanced, ?_, h.ordered, h.ahead, h.behind⟩
  simpa using h.records.trans s'.records_advanced

/-- One more fault. -/
theorem push {f : Fault} (h : s.Meets faults s' last')
    (hordered : ∀ f' ∈ faults, f'.Precedes f) (hahead : s.current.start ≤ f.loc.start)
    (hlast : last' ≤ last) (hbehind : f.loc.start ≤ last) :
    s.Meets (faults ++ [f]) (s'.record f.report) last := by
  refine ⟨h.forward.trans (.stay rfl), ?_, ?_, fun f' hf' => ?_, fun f' hf' => ?_⟩
  · rw [List.map_append]
    exact h.records.trans (s'.records_record _ _)
  · refine List.pairwise_append.mpr ⟨h.ordered, List.pairwise_singleton _ _, ?_⟩
    simpa using hordered
  · rcases List.mem_append.mp hf' with hf' | hf'
    · exact h.ahead f' hf'
    · exact List.mem_singleton.mp hf' ▸ hahead
  · rcases List.mem_append.mp hf' with hf' | hf'
    · exact (h.behind f' hf').trans hlast
    · exact List.mem_singleton.mp hf' ▸ hbehind

/-- The mode for the values of a case does not matter. -/
theorem inCase {b b' : Bool} (h : ({ s with inCase := b } : State).Meets faults s' last) :
    s.Meets faults { s' with inCase := b' } last := by
  obtain ⟨hforward, ⟨herrors, hdiagnostics, hsource, hfile, hlocated⟩, hordered, hahead,
    hbehind⟩ := h
  have hbefore : s.Forward ({ s with inCase := b } : State) := .stay rfl
  exact ⟨(hbefore.trans hforward).trans (.stay rfl),
    ⟨herrors, hdiagnostics, hsource, hfile, hlocated⟩, hordered, hahead, hbehind⟩

end Meets

end State

/-! ### Runs -/

/-- What has been found since a state: up to the current token if the parser succeeds,
and up to the one behind it if it fails. -/
def Outcome.Ordered (base : State) (Q : α → List Fault → State → Prop) : Outcome α → Prop
  | .ok a s' => ∃ faults, base.Meets faults s' s'.current.start ∧ Q a faults s'
  | .failed s' => ∃ faults, base.Meets faults s' s'.next.start
  | .exhausted => True

/-- What has been found since a state behind a parser that starts in another one. -/
def OrdersSince (base : State) (p : Parser α) (s : State)
    (Q : α → List Fault → State → Prop) : Prop :=
  (p s).Ordered base Q

/-- What a parser finds that starts in this state. -/
def Orders (p : Parser α) (s : State) (Q : α → List Fault → State → Prop) : Prop :=
  OrdersSince s p s Q

/-- The parser finds its problems in order, wherever it starts. -/
def Steady (p : Parser α) : Prop :=
  ∀ ⦃file : String⦄ ⦃all : List Token⦄ ⦃s : State⦄, s.Over file all →
    Orders p s fun _ _ _ => True

variable {p : Parser α} {f : α → Parser β} {Q : α → List Fault → State → Prop}

/-- What has been found before is found first. -/
theorem Outcome.Ordered.after {R : α → List Fault → State → Prop} {o : Outcome α}
    (hbase : base.Over file all) (h : base.Meets faults s s.current.start)
    (ho : o.Ordered s Q)
    (hQ : ∀ a faults' s', s'.Over file all → s.Meets faults' s' s'.current.start →
      Q a faults' s' → R a (faults ++ faults') s') : o.Ordered base R := by
  have hs : s.Over file all := h.stillOver hbase
  cases o with
  | ok a s' =>
    obtain ⟨faults', h', ha⟩ := ho
    exact ⟨faults ++ faults', h.trans hbase h' (State.Over.before_forward h'.forward hs).1,
      hQ a faults' s' (h'.stillOver hs) h' ha⟩
  | failed s' =>
    obtain ⟨faults', h'⟩ := ho
    exact ⟨faults ++ faults',
      h.trans hbase h' (hs.before_next_forward h'.forward h'.records.file)⟩
  | exhausted => trivial

theorem OrdersSince.bind {R : β → List Fault → State → Prop}
    (hp : OrdersSince base p s Q)
    (hf : ∀ a faults s', base.Meets faults s' s'.current.start → Q a faults s' →
      OrdersSince base (f a) s' R) : OrdersSince base (p >>= f) s R := by
  unfold OrdersSince at hp ⊢
  rw [bind_eq]
  cases hrun : p s with
  | ok a s' =>
    rw [hrun] at hp
    obtain ⟨faults, h, ha⟩ := hp
    exact hf a faults s' h ha
  | failed s' =>
    rw [hrun] at hp
    exact hp
  | exhausted => trivial

theorem Orders.bind {R : β → List Fault → State → Prop} (hs : s.Over file all)
    (hp : Orders p s Q)
    (hf : ∀ a faults s', s'.Over file all → s.Meets faults s' s'.current.start →
      Q a faults s' → Orders (f a) s' fun b faults' s'' => R b (faults ++ faults') s'') :
    Orders (p >>= f) s R :=
  OrdersSince.bind hp fun a faults s' h ha =>
    (hf a faults s' (h.stillOver hs) h ha).after hs h fun _ _ _ _ _ hR => hR

theorem Orders.mono {R : α → List Fault → State → Prop} (hs : s.Over file all)
    (hp : Orders p s Q)
    (h : ∀ a faults s', s'.Over file all → s.Meets faults s' s'.current.start →
      Q a faults s' → R a faults s') : Orders p s R :=
  Outcome.Ordered.after hs (.refl s) hp h

theorem Orders.weaken (hs : s.Over file all) (hp : Orders p s Q) :
    Orders p s fun _ _ _ => True :=
  hp.mono hs fun _ _ _ _ _ _ => trivial

/-- A result that is made of the one before it. -/
theorem Orders.map {R : β → List Fault → State → Prop} {k : α → β} (hs : s.Over file all)
    (hp : Orders p s Q) (h : ∀ a faults s', Q a faults s' → R (k a) faults s') :
    Orders (p >>= fun a => Pure.pure (k a)) s R := by
  refine hp.bind hs fun a faults s' _ _ ha => ⟨[], .refl s', ?_⟩
  simpa using h a faults s' ha

theorem Steady.bind (hp : Steady p) (hf : ∀ a, Steady (f a)) : Steady (p >>= f) :=
  fun _ _ _ hs => (hp hs).bind hs fun a _ _ hs' _ _ => hf a hs'

/-! ### Steps -/

theorem orders_pure {a : α} (h : Q a [] s) : Orders (Pure.pure a : Parser α) s Q :=
  ⟨[], .refl s, h⟩

theorem steady_of_eq {g : State → α} (h : ∀ s, p s = .ok (g s) s) : Steady p := by
  intro _ _ s _
  unfold Orders OrdersSince
  rw [h]
  exact ⟨[], .refl s, trivial⟩

theorem steady_pure {a : α} : Steady (Pure.pure a : Parser α) := steady_of_eq fun _ => rfl

theorem steady_current : Steady current := steady_of_eq fun _ => rfl

theorem steady_here : Steady here := steady_of_eq fun _ => rfl

theorem steady_spanFrom {start : Location} : Steady (spanFrom start) :=
  steady_of_eq fun _ => rfl

theorem steady_currentIs {kind : Token.Kind} : Steady (currentIs kind) :=
  steady_of_eq fun _ => rfl

theorem steady_nextIs {kind : Token.Kind} : Steady (nextIs kind) := steady_of_eq fun _ => rfl

theorem steady_nextKind : Steady nextKind := steady_of_eq fun _ => rfl

theorem steady_nameHere : Steady nameHere := steady_of_eq fun _ => rfl

section

variable {R : β → List Fault → State → Prop}

theorem ordersSince_current_bind {f : Token → Parser β} :
    OrdersSince base (current >>= f) s R ↔ OrdersSince base (f s.current) s R := Iff.rfl

theorem ordersSince_nextKind_bind {f : Token.Kind → Parser β} :
    OrdersSince base (nextKind >>= f) s R ↔ OrdersSince base (f s.next.kind) s R := Iff.rfl

theorem ordersSince_advance_bind {f : Unit → Parser β}
    (h : OrdersSince base (f ()) s.advanced R) : OrdersSince base (advance >>= f) s R := by
  unfold OrdersSince
  rw [bind_ok (advance_eq s)]
  exact h

theorem orders_current_bind {f : Token → Parser β} :
    Orders (current >>= f) s R ↔ Orders (f s.current) s R := Iff.rfl

theorem orders_here_bind {f : Location → Parser β} :
    Orders (here >>= f) s R ↔ Orders (f (locationOf s s.current)) s R := Iff.rfl

theorem orders_spanFrom_bind {f : Location → Parser β} {start : Location} :
    Orders (spanFrom start >>= f) s R ↔
      Orders (f (start.through (locationOf s s.current))) s R := Iff.rfl

theorem orders_currentIs_bind {f : Bool → Parser β} {kind : Token.Kind} :
    Orders (currentIs kind >>= f) s R ↔ Orders (f (s.current.kind == kind)) s R := Iff.rfl

theorem orders_nextIs_bind {f : Bool → Parser β} {kind : Token.Kind} :
    Orders (nextIs kind >>= f) s R ↔ Orders (f (s.next.kind == kind)) s R := Iff.rfl

theorem orders_nextKind_bind {f : Token.Kind → Parser β} :
    Orders (nextKind >>= f) s R ↔ Orders (f s.next.kind) s R := Iff.rfl

theorem orders_insideCase_bind {f : Bool → Parser β} :
    Orders (insideCase >>= f) s R ↔ Orders (f s.inCase) s R := Iff.rfl

theorem orders_nameHere_bind {f : Name → Parser β} :
    Orders (nameHere >>= f) s R ↔
      Orders (f { text := s.current.text, loc := locationOf s s.current }) s R := Iff.rfl

theorem orders_advance_bind {f : Unit → Parser β} (hs : s.Over file all)
    (h : Orders (f ()) s.advanced R) : Orders (advance >>= f) s R := by
  have hstep : s.Meets [] s.advanced s.advanced.current.start := (State.Meets.refl s).step
  exact ordersSince_advance_bind (h.after hs hstep fun _ _ _ _ _ hR => hR)

end

theorem orders_advance : Orders advance s fun _ faults s' => faults = [] ∧ s' = s.advanced := by
  unfold Orders OrdersSince
  rw [advance_eq]
  exact ⟨[], (State.Meets.refl s).step, rfl, rfl⟩

theorem steady_advance : Steady advance := fun _ _ _ hs => orders_advance.weaken hs

/-- A problem at the current token. -/
theorem orders_fail (hs : s.Over file all) {problem : Problem} :
    Orders (fail problem (locationOf s s.current)) s Q :=
  ⟨_, (State.Meets.refl s).push (f := ⟨problem, _⟩) (by simp) (le_refl _)
    hs.before_next.start hs.before_next.start⟩

theorem orders_unexpected (hs : s.Over file all) {expected : String} :
    Orders (unexpected expected) s Q := by
  unfold unexpected
  rw [orders_current_bind, orders_here_bind]
  exact orders_fail hs

theorem steady_unexpected {expected : String} :
    Steady (unexpected expected : Parser α) := fun _ _ _ hs => orders_unexpected hs

/-- A problem at the token behind the current one. -/
theorem orders_failAtNext (hs : s.Over file all) {expected : String} :
    Orders (failAtNext expected) s Q :=
  ⟨_, (State.Meets.refl s).push (f := ⟨nextProblem expected s.next, locationOf s s.next⟩)
    (by simp) hs.before_next.start (le_refl _) (le_refl _)⟩

theorem steady_giveUp : Steady (giveUp : Parser α) :=
  fun _ _ s _ => ⟨[], .refl s⟩

/-- An expected token is passed without a fault. -/
theorem orders_expect (hs : s.Over file all) {kind : Token.Kind} :
    Orders (expect kind) s fun _ faults s' => faults = [] ∧ s' = s.advanced := by
  unfold expect
  rw [orders_nextIs_bind]
  split
  · exact orders_advance
  · exact orders_failAtNext hs

theorem steady_expect {kind : Token.Kind} : Steady (expect kind) :=
  fun _ _ _ hs => (orders_expect hs).weaken hs

theorem orders_expect_bind {f : Unit → Parser β} {R : β → List Fault → State → Prop}
    {kind : Token.Kind} (hs : s.Over file all) (h : Orders (f ()) s.advanced R) :
    Orders (expect kind >>= f) s R := by
  refine (orders_expect hs).bind hs ?_
  rintro _ _ _ _ _ ⟨rfl, rfl⟩
  exact h

theorem steady_takeComma : Steady takeComma := by
  unfold takeComma
  refine steady_nextIs.bind fun comma => ?_
  split
  · exact steady_advance.bind fun _ => steady_pure
  · exact steady_pure

theorem Steady.inCaseValues (h : Steady p) : Steady (inCaseValues p) := by
  intro file all s hs
  have hmode : ({ s with inCase := true } : State).Over file all := hs.congr rfl rfl
  have hp := h hmode
  unfold Orders OrdersSince at hp ⊢
  unfold Parser.inCaseValues
  cases hrun : p { s with inCase := true } with
  | ok a s' =>
    rw [hrun] at hp
    obtain ⟨faults, h, -⟩ := hp
    exact ⟨faults, h.inCase, trivial⟩
  | failed s' =>
    rw [hrun] at hp
    obtain ⟨faults, h⟩ := hp
    exact ⟨faults, h.inCase⟩
  | exhausted => trivial

/-- What has failed at the token behind the current one goes on behind it. -/
theorem Steady.optional {f : Option α → Parser β} (hp : Steady p) (hf : ∀ a, Steady (f a)) :
    Steady (optional p >>= fun a => advance >>= fun _ => f a) := by
  intro file all s hs
  -- A failure may have been found at the next token, which the step takes in.
  have hstep : ∀ {faults : List Fault} {s' : State} (a : Option α),
      s.Meets faults s' s'.next.start →
      ((advance >>= fun _ => f a) s').Ordered s fun _ _ _ => True := by
    intro faults s' a h
    have h' : s.Meets faults s'.advanced s'.advanced.current.start := by
      rw [s'.advanced_current]
      exact h.step
    rw [bind_ok (advance_eq s')]
    exact (hf a (h'.stillOver hs)).after hs h' fun _ _ _ _ _ _ => trivial
  have hrun := hp hs
  unfold Orders OrdersSince at hrun ⊢
  rw [bind_eq]
  unfold Parser.optional
  cases heq : p s with
  | ok a s' =>
    rw [heq] at hrun
    obtain ⟨faults, h, -⟩ := hrun
    exact hstep (some a) (h.mono (h.stillOver hs).before_next.start)
  | failed s' =>
    rw [heq] at hrun
    obtain ⟨faults, h⟩ := hrun
    exact hstep none h
  | exhausted => trivial

/-! ### Loops -/

/-- What every pass keeps up, the loop keeps up. -/
theorem ordersSince_iterate {body : σ → Parser (Pass σ β)} {I : σ → List Fault → State → Prop}
    {R : β → List Fault → State → Prop}
    (hbody : ∀ state faults s, base.Meets faults s s.current.start → I state faults s →
      OrdersSince base (body state) s fun pass faults s' =>
        pass.Keeps (fun state => I state faults) (fun b => R b faults) s')
    (fuel : List Token) {state : σ} (h : base.Meets faults s s.current.start)
    (hI : I state faults s) : OrdersSince base (iterate body fuel state) s R := by
  induction fuel generalizing state s faults with
  | nil => trivial
  | cons t fuel ih =>
    have hpass := hbody state faults s h hI
    unfold OrdersSince at hpass ih ⊢
    unfold iterate
    cases hrun : body state s with
    | ok pass s' =>
      rw [hrun] at hpass
      obtain ⟨faults', h', hkeeps⟩ := hpass
      cases pass with
      | again state' => exact ih h' hkeeps
      | done result => exact ⟨faults', h', hkeeps⟩
    | failed s' =>
      rw [hrun] at hpass
      exact hpass
    | exhausted => trivial

theorem steady_repeated {body : σ → Parser (Pass σ β)} (hbody : ∀ state, Steady (body state))
    (state : σ) : Steady (repeated body state) := by
  intro file all s hs
  refine ordersSince_iterate (I := fun _ _ _ => True) (fun state faults s' h _ => ?_) _ (.refl s)
    trivial
  refine (hbody state (h.stillOver hs)).after hs h fun pass _ _ _ _ _ => ?_
  cases pass <;> trivial

end Parser

end Script
