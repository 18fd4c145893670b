import Script.Proofs.Syntax.Printable
import Script.Proofs.Syntax.Running
import Script.Proofs.Token.Proper

/-!
# What a parser yields

`Yields p s Q` says what is true of the result and of the state of a parser, if
it succeeds.  Tokens that come from a source stay that way, also if the parser
fails.  From this follows what the trees look like that the parser makes of any
source at all: they are well formed.
-/

namespace Script

open Node (Every WellFormed inTurn)

/-! ### Well-formed trees -/

namespace Node

/-- Everything in a node is well formed. -/
def Formed (n : Node) : Prop := ∀ b, Every WellFormed b n

theorem mem_of_inTurn {b b' : Bool} {nodes : List Node} {n : Node}
    (h : (b', n) ∈ inTurn b nodes) : n ∈ nodes := by
  induction nodes generalizing b with
  | nil => cases h
  | cons n' nodes ih =>
    rcases List.mem_cons.mp h with heq | hmem
    · rw [(Prod.mk.inj heq).2]
      exact List.mem_cons_self
    · exact List.mem_cons_of_mem _ (ih hmem)

/-- A node that is well formed, with well-formed nodes inside. -/
theorem formed_of {n : Node} (here : ∀ b, WellFormed b n)
    (inside : ∀ b b' n', (b', n') ∈ n.parts b → n'.Formed) : n.Formed :=
  fun b => Every.intro (here b) fun b' n' hn' => inside b b' n' hn' b'

theorem formed_expr {e : Expr} (nodes : List Node)
    (hparts : ∀ b, ofExpr b e = inTurn b nodes)
    (here : exprIsWellFormed e = true) (inside : ∀ n ∈ nodes, n.Formed) :
    (expr e).Formed := by
  refine formed_of (fun _ => here) fun b b' n' hn' => inside n' ?_
  have hturn : (b', n') ∈ inTurn b nodes := hparts b ▸ hn'
  exact mem_of_inTurn hturn

theorem formed_stmt {st : Stmt} (nodes : List Node)
    (hparts : ∀ b, ofStmt b st = inTurn b nodes)
    (here : stmtIsWellFormed st = true) (inside : ∀ n ∈ nodes, n.Formed) :
    (stmt st).Formed := by
  refine formed_of (fun _ => here) fun b b' n' hn' => inside n' ?_
  have hturn : (b', n') ∈ inTurn b nodes := hparts b ▸ hn'
  exact mem_of_inTurn hturn

theorem Formed.here {n : Node} (h : n.Formed) : ∀ b, WellFormed b n :=
  fun b => (h b).here

theorem formed_block {bl : Block}
    (h : ∀ st ∈ bl.statements, (stmt st).Formed) : (block bl).Formed := by
  refine formed_of (fun _ => trivial) fun b b' n' hn' => ?_
  obtain ⟨st, hst, rfl⟩ := List.mem_map.mp (mem_of_inTurn hn')
  exact h st hst

theorem formed_function {f : Function} (hparams : f.params.isWellFormed = true)
    (hreturns : f.returns.all TypeExpr.isWellFormed = true)
    (hbody : (block f.body).Formed) : (function f).Formed := by
  refine formed_of (fun _ => ⟨hparams, hreturns⟩) fun b b' n' hn' => ?_
  rw [List.mem_singleton.mp (mem_of_inTurn hn')]
  exact hbody

/-- The value of a variable counts as an expression or as a function. -/
theorem formed_ofValue {e : Expr} (h : (expr e).Formed) :
    (ofValue e).Formed := by
  unfold ofValue
  split
  · next f =>
    have hinside : ∀ b, Every WellFormed b (function f) := fun b =>
      (h b).inside List.mem_cons_self
    exact hinside
  · exact h

theorem formed_bind {constant : Bool} {name : Name}
    {type : Option TypeExpr} {value : Expr} {loc : Location}
    (hname : name.isIdentifier = true)
    (htype : type.all TypeExpr.isWellFormed = true)
    (hvalue : (expr value).Formed) :
    (stmt (.bind constant name type value loc)).Formed := by
  refine formed_stmt [ofValue value] (fun _ => rfl) ?_ ?_
  · change (name.isIdentifier && type.all TypeExpr.isWellFormed) = true
    rw [hname, htype]
    rfl
  · intro n hn
    rw [List.mem_singleton.mp hn]
    exact formed_ofValue hvalue

theorem formed_functionExpr {f : Function}
    (h : (function f).Formed) : (expr (.function f)).Formed := by
  refine formed_expr [function f] (fun _ => rfl) rfl ?_
  intro n hn
  rw [List.mem_singleton.mp hn]
  exact h

/-- A statement without nodes inside. -/
theorem formed_of_leaf {st : Stmt} (hparts : ∀ b, ofStmt b st = [])
    (h : stmtIsWellFormed st = true) : (stmt st).Formed :=
  formed_stmt [] hparts h (by simp)

end Node

/-! ### Parsers -/

namespace Parser

variable {α β σ : Type}

/-- All tokens in front of the parser come from a source. -/
structure State.Proper (s : State) : Prop where
  current : s.current.Proper
  next : s.next.Proper
  rest : ∀ t ∈ s.rest, t.Proper

theorem State.Proper.advanced {s : State} (h : s.Proper) :
    s.advanced.Proper := by
  unfold State.advanced
  split
  · next hrest =>
    exact ⟨h.next, h.next, fun t ht => by simp [hrest] at ht⟩
  · next t rest hrest =>
    have hall := h.rest
    rw [hrest] at hall
    exact ⟨h.next, hall t List.mem_cons_self,
      fun t' ht' => hall t' (List.mem_cons_of_mem t ht')⟩

/-- What one can rely on behind a parser: the tokens still come from the source,
and a report is not taken back. -/
structure State.After (s' s : State) : Prop where
  proper : s'.Proper
  reported : s.errors ≠ #[] → s'.errors ≠ #[]

theorem State.After.trans {s s' s'' : State} (h : s'.After s)
    (h' : s''.After s') : s''.After s :=
  ⟨h'.proper, fun hs => h'.reported (h.reported hs)⟩

/-- An outcome that comes after a state. -/
def Outcome.After (s : State) (Q : α → State → Prop) : Outcome α → Prop
  | .ok a s' => s'.After s ∧ Q a s'
  | .failed s' => s'.After s
  | .exhausted => True

theorem Outcome.After.trans {s s' : State} {Q : α → State → Prop}
    {o : Outcome α} (ho : o.After s' Q) (hs : s'.After s) : o.After s Q := by
  cases o with
  | ok a s'' => exact ⟨hs.trans ho.1, ho.2⟩
  | failed s'' => exact hs.trans ho
  | exhausted => trivial

theorem Outcome.After.mono {s : State} {Q R : α → State → Prop}
    {o : Outcome α} (ho : o.After s Q) (hQ : ∀ a s', Q a s' → R a s') :
    o.After s R := by
  cases o with
  | ok a s'' => exact ⟨ho.1, hQ a s'' ho.2⟩
  | failed s'' => exact ho
  | exhausted => trivial

def Yields (p : Parser α) (s : State) (Q : α → State → Prop) : Prop :=
  (p s).After s Q

/-- The results of a parser, whatever the tokens are. -/
def Sound (p : Parser α) (Q : α → Prop) : Prop :=
  ∀ s : State, s.Proper → Yields p s fun a _ => Q a

variable {p : Parser α} {f : α → Parser β} {s : State} {Q : α → State → Prop}
  {R : β → State → Prop}

theorem Yields.bind (h : Yields p s Q)
    (hf : ∀ a s', s'.Proper → Q a s' → Yields (f a) s' R) :
    Yields (p >>= f) s R := by
  unfold Yields at h ⊢
  rw [bind_eq]
  cases hp : p s with
  | ok a s' =>
    rw [hp] at h
    exact (hf a s' h.1.proper h.2).trans h.1
  | failed s' =>
    rw [hp] at h
    exact h
  | exhausted => trivial

/-! ### Looking at tokens -/

theorem yields_current_bind {f : Token → Parser β} :
    Yields (current >>= f) s R ↔ Yields (f s.current) s R := Iff.rfl

theorem yields_here_bind {f : Location → Parser β} :
    Yields (here >>= f) s R ↔ Yields (f (locationOf s s.current)) s R := Iff.rfl

theorem yields_spanFrom_bind {f : Location → Parser β} {start : Location} :
    Yields (spanFrom start >>= f) s R ↔
      Yields (f (start.through (locationOf s s.current))) s R := Iff.rfl

theorem yields_currentIs_bind {f : Bool → Parser β} {kind : Token.Kind} :
    Yields (currentIs kind >>= f) s R ↔
      Yields (f (s.current.kind == kind)) s R := Iff.rfl

theorem yields_nextIs_bind {f : Bool → Parser β} {kind : Token.Kind} :
    Yields (nextIs kind >>= f) s R ↔
      Yields (f (s.next.kind == kind)) s R := Iff.rfl

theorem yields_nextKind_bind {f : Token.Kind → Parser β} :
    Yields (nextKind >>= f) s R ↔ Yields (f s.next.kind) s R := Iff.rfl

theorem yields_insideCase_bind {f : Bool → Parser β} :
    Yields (insideCase >>= f) s R ↔ Yields (f s.inCase) s R := Iff.rfl

theorem yields_nameHere_bind {f : Name → Parser β} :
    Yields (nameHere >>= f) s R ↔
      Yields (f { text := s.current.text, loc := locationOf s s.current }) s R :=
  Iff.rfl

theorem State.Proper.after (hs : s.Proper) : s.After s := ⟨hs, id⟩

theorem State.Proper.advanced_after (hs : s.Proper) : s.advanced.After s :=
  ⟨hs.advanced, fun h => by rwa [s.advanced_errors]⟩

theorem yields_pure {a : α} (hs : s.Proper) (ha : Q a s) :
    Yields (Pure.pure a : Parser α) s Q := ⟨hs.after, ha⟩

theorem yields_advance (hs : s.Proper) :
    Yields advance s fun _ s' => s' = s.advanced := by
  unfold Yields
  rw [advance_eq]
  exact ⟨hs.advanced_after, rfl⟩

theorem yields_advance_bind {f : Unit → Parser β} (hs : s.Proper)
    (hf : s.advanced.Proper → Yields (f ()) s.advanced R) :
    Yields (advance >>= f) s R := by
  refine Yields.bind (yields_advance hs) fun _ s' hs' heq => ?_
  rw [heq]
  exact hf hs.advanced

/-! ### Failing -/

theorem yields_fail (hs : s.Proper) {problem : Problem} {loc : Location} :
    Yields (fail problem loc : Parser α) s Q := by
  exact ⟨⟨hs.current, hs.next, hs.rest⟩, fun _ => Array.push_ne_empty⟩

theorem yields_unexpected (hs : s.Proper) {expected : String} :
    Yields (unexpected expected : Parser α) s Q := by
  unfold unexpected
  rw [yields_current_bind, yields_here_bind]
  exact yields_fail hs

theorem yields_failAtNext (hs : s.Proper) {expected : String} :
    Yields (failAtNext expected : Parser α) s Q := by
  have hfail : Yields (fail (α := α) (nextProblem expected s.next)
      (locationOf s s.next)) s Q := yields_fail hs
  exact hfail

/-- Behind an expected token the parser stands on it. -/
theorem yields_expect_bind {f : Unit → Parser β} {kind : Token.Kind}
    (hs : s.Proper)
    (hf : s.advanced.Proper → s.advanced.current.kind = kind →
      Yields (f ()) s.advanced R) :
    Yields (expect kind >>= f) s R := by
  have hexpect : Yields (expect kind) s fun _ s' =>
      s' = s.advanced ∧ s.next.kind = kind := by
    unfold expect
    rw [yields_nextIs_bind]
    split
    · next hkind =>
      refine Outcome.After.mono (yields_advance hs) fun _ s' heq => ?_
      exact ⟨heq, by simpa using hkind⟩
    · exact yields_failAtNext hs
  refine Yields.bind hexpect fun _ s' hs' h => ?_
  rw [h.1]
  exact hf hs.advanced (by rw [s.advanced_current, h.2])

/-! ### Combinators -/

theorem Sound.optional {Q : α → Prop} (h : Sound p Q) :
    Sound (optional p) fun a => ∀ v ∈ a, Q v := by
  intro s hs
  have hp := h s hs
  unfold Yields at hp ⊢
  unfold Parser.optional
  cases hrun : p s with
  | ok a s' =>
    rw [hrun] at hp
    refine ⟨hp.1, fun v hv => ?_⟩
    obtain rfl := Option.some.inj hv
    exact hp.2
  | failed s' =>
    rw [hrun] at hp
    exact ⟨hp, by simp⟩
  | exhausted => trivial

theorem Sound.inCaseValues {Q : α → Prop} (h : Sound p Q) :
    Sound (inCaseValues p) Q := by
  intro s hs
  have hp := h { s with inCase := true } ⟨hs.current, hs.next, hs.rest⟩
  have hafter : ∀ s' : State, s'.After { s with inCase := true } →
      { s' with inCase := false }.After s := by
    intro s' hs'
    have hproper := hs'.proper
    exact ⟨⟨hproper.current, hproper.next, hproper.rest⟩, hs'.reported⟩
  unfold Yields at hp ⊢
  unfold Parser.inCaseValues
  cases hrun : p { s with inCase := true } with
  | ok a s' =>
    rw [hrun] at hp
    exact ⟨hafter s' hp.1, hp.2⟩
  | failed s' =>
    rw [hrun] at hp
    exact hafter s' hp
  | exhausted => trivial

/-- What holds after a pass of a loop. -/
def Pass.Holds (I : σ → Prop) (R : β → Prop) : Pass σ β → Prop
  | .again state => I state
  | .done result => R result

/-- A loop whose passes keep an invariant. -/
theorem sound_repeated {body : σ → Parser (Pass σ β)} {I : σ → Prop}
    {R : β → Prop} {state : σ} (hstate : I state)
    (hbody : ∀ state, I state → Sound (body state) (Pass.Holds I R)) :
    Sound (repeated body state) R := by
  have hloop : ∀ (fuel : List Token) (state : σ) (s : State), I state →
      s.Proper → Yields (iterate body fuel state) s fun r _ => R r := by
    intro fuel
    induction fuel with
    | nil =>
      intro state s _ _
      trivial
    | cons t fuel ih =>
      intro state s hstate hs
      have hpass := hbody state hstate s hs
      unfold Yields at hpass ⊢
      unfold iterate
      cases hrun : body state s with
      | ok pass s' =>
        rw [hrun] at hpass
        cases pass with
        | again state' =>
          exact (ih state' s' hpass.2 hpass.1.proper).trans hpass.1
        | done result => exact hpass
      | failed s' =>
        rw [hrun] at hpass
        exact hpass
      | exhausted => trivial
  exact fun s hs => hloop _ state s hstate hs

theorem sound_takeComma : Sound takeComma fun _ => True := by
  intro s hs
  unfold takeComma
  rw [yields_nextIs_bind]
  split
  · refine yields_advance_bind hs fun hs' => ?_
    exact yields_pure hs' trivial
  · exact yields_pure hs trivial

/-- The items of a list, of which there is at least one. -/
theorem sound_commaList {item : Parser α} {Q : α → Prop} (h : Sound item Q) :
    Sound (commaList item) fun as => as ≠ [] ∧ ∀ a ∈ as, Q a := by
  refine sound_repeated (I := fun as => ∀ a ∈ as, Q a) (by simp)
    fun read hread s hs => ?_
  refine Yields.bind (h s hs) fun a s' hs' ha => ?_
  have hall : ∀ a' ∈ a :: read, Q a' := by
    intro a' ha'
    rcases List.mem_cons.mp ha' with rfl | hmem
    · exact ha
    · exact hread a' hmem
  refine Yields.bind (sound_takeComma s' hs') fun more s'' hs'' _ => ?_
  split
  · exact yields_pure hs'' hall
  · refine yields_pure hs'' ⟨by simp, fun a' ha' => ?_⟩
    exact hall a' (List.mem_reverse.mp ha')

end Parser

end Script
