import Script.Proofs.Syntax.Cursor
import Script.Proofs.Syntax.Operators

/-!
# Progress

`Goes E z p` says that a parser which starts in the zone `z` does not move back, whether
it succeeds or fails, and that the bound on its recursion can only have been too small
if `E`.  It is put together along the parser.  For a loop every pass that asks for
another one has to consume a token, and then the passes last.
-/

namespace Script

namespace Parser

variable {α β σ : Type}

/-- The outcome of a parser that has not moved back. -/
def Outcome.Ahead (E : Prop) (s : State) (Q : α → State → Prop) : Outcome α → Prop
  | .ok a s' => s.Forward s' ∧ Q a s'
  | .failed s' => s.Forward s'
  | .exhausted => E

/-- What a parser does that starts in this state. -/
def Leads (E : Prop) (p : Parser α) (s : State) (Q : α → State → Prop) : Prop :=
  (p s).Ahead E s Q

/-- States in which a parser may start.  Moving on does not lead out of them. -/
structure Zone where
  holds : State → Prop
  stays : ∀ {s s' : State}, s.Ended → s.Forward s' → holds s → holds s'

/-- Fewer than `b` tokens are pending. -/
def Zone.below (b : Nat) : Zone where
  holds s := s.pending < b
  stays hs hforward hbelow := Nat.lt_of_le_of_lt (hforward.pending_le hs) hbelow

/-- Fewer than `b` tokens are pending behind the current one. -/
def Zone.nearly (b : Nat) : Zone where
  holds s := s.advanced.pending < b
  stays hs hforward hbelow :=
    Nat.lt_of_le_of_lt (hforward.advanced.pending_le hs.advanced) hbelow

/-- What a parser that starts in the zone does: it does not move back, and if it
succeeds then `Q` of the state it started in, its result and the state behind it. -/
def Moves (E : Prop) (z : Zone) (p : Parser α) (Q : State → α → State → Prop) : Prop :=
  ∀ s : State, s.Ended → z.holds s → Leads E p s (Q s)

def Goes (E : Prop) (z : Zone) (p : Parser α) : Prop := Moves E z p fun _ _ _ => True

/-- The same for a parser that moves at least once if it succeeds. -/
def Advances (E : Prop) (z : Zone) (p : Parser α) : Prop :=
  Moves E z p fun s _ s' => s.advanced.Forward s'

/-- A pass that asks for another one has consumed a token. -/
def Pass.Consumed (s : State) : Pass σ β → State → Prop
  | .again _, s' => s.Consumes s'
  | .done _, _ => True

/-- The passes of a loop. -/
def Loops (E : Prop) (z : Zone) (body : σ → Parser (Pass σ β)) : Prop :=
  ∀ state, Moves E z (body state) fun s pass s' => pass.Consumed s s'

variable {E : Prop} {z : Zone} {b : Nat} {p : Parser α} {f : α → Parser β}
  {s s' : State} {Q : State → α → State → Prop}

/-! ### One after the other -/

theorem Outcome.Ahead.trans {R : α → State → Prop} {o : Outcome α}
    (h : s.Forward s') (ho : o.Ahead E s' R) : o.Ahead E s R := by
  cases o with
  | ok a s'' => exact ⟨h.trans ho.1, ho.2⟩
  | failed s'' => exact h.trans ho
  | exhausted => exact ho

theorem Leads.bind {R : α → State → Prop} {T : β → State → Prop}
    (hp : Leads E p s R) (hf : ∀ a s', s.Forward s' → R a s' → Leads E (f a) s' T) :
    Leads E (p >>= f) s T := by
  unfold Leads at hp ⊢
  rw [bind_eq]
  cases hrun : p s with
  | ok a s' =>
    rw [hrun] at hp
    exact (hf a s' hp.1 hp.2).trans hp.1
  | failed s' =>
    rw [hrun] at hp
    exact hp
  | exhausted =>
    rw [hrun] at hp
    exact hp

theorem Leads.mono {R T : α → State → Prop} (hp : Leads E p s R)
    (h : ∀ a s', s.Forward s' → R a s' → T a s') : Leads E p s T := by
  unfold Leads at hp ⊢
  cases hrun : p s with
  | ok a s' =>
    rw [hrun] at hp
    exact ⟨hp.1, h a s' hp.1 hp.2⟩
  | failed s' =>
    rw [hrun] at hp
    exact hp
  | exhausted =>
    rw [hrun] at hp
    exact hp

theorem Leads.both {R T : α → State → Prop} (h : Leads E p s R) (h' : Leads E p s T) :
    Leads E p s fun a s' => R a s' ∧ T a s' := by
  unfold Leads at h h' ⊢
  cases hrun : p s with
  | ok a s' =>
    rw [hrun] at h h'
    exact ⟨h.1, h.2, h'.2⟩
  | failed s' =>
    rw [hrun] at h
    exact h
  | exhausted =>
    rw [hrun] at h
    exact h

theorem Moves.goes (h : Moves E z p Q) : Goes E z p :=
  fun s hs hz => (h s hs hz).mono fun _ _ _ _ => trivial

theorem Moves.bind {R : State → β → State → Prop} (hp : Moves E z p Q)
    (hf : ∀ s a s', s.Ended → s.Forward s' → z.holds s' → Q s a s' →
      Leads E (f a) s' (R s)) : Moves E z (p >>= f) R :=
  fun s hs hz => (hp s hs hz).bind fun a s' hforward ha =>
    hf s a s' hs hforward (z.stays hs hforward hz) ha

theorem Goes.bind (hp : Goes E z p) (hf : ∀ a, Goes E z (f a)) : Goes E z (p >>= f) :=
  Moves.bind hp fun _ a s' hs hforward hz _ => hf a s' (hs.forward hforward) hz

theorem leads_pure {a : α} {R : α → State → Prop} (h : R a s) :
    Leads E (Pure.pure a : Parser α) s R :=
  ⟨.refl s, h⟩

theorem Advances.goes (h : Advances E z p) : Goes E z p := Moves.goes h

theorem Advances.bind (hp : Advances E z p) (hf : ∀ a, Goes E z (f a)) :
    Advances E z (p >>= f) :=
  Moves.bind hp fun _ a s' hs hforward hz hmoved =>
    (hf a s' (hs.forward hforward) hz).mono fun _ _ hforward' _ => hmoved.trans hforward'

theorem goes_pure {a : α} : Goes E z (Pure.pure a : Parser α) :=
  fun _ _ _ => leads_pure trivial

/-- Where fewer tokens are pending, fewer of them are pending behind the current one. -/
theorem Moves.below (h : Moves E (.nearly b) p Q) : Moves E (.below b) p Q :=
  fun s hs hz => h s hs (Nat.lt_of_le_of_lt hs.pending_advanced_le hz)

theorem Goes.below (h : Goes E (.nearly b) p) : Goes E (.below b) p := Moves.below h

theorem Loops.below {body : σ → Parser (Pass σ β)} (h : Loops E (.nearly b) body) :
    Loops E (.below b) body :=
  fun state => (h state).below

/-- At the end of input there is no token to pay for a production, but there it fails
anyway. -/
theorem Goes.below_succ (h : Goes E (.nearly b) p)
    (heof : ∀ s : State, s.Ended → s.current.kind = .eof → Leads E p s fun _ _ => True) :
    Goes E (.below (b + 1)) p := by
  intro s hs hz
  by_cases hcurrent : s.current.kind = .eof
  · exact heof s hs hcurrent
  · refine h s hs ?_
    have heq := hs.pending_advanced hcurrent
    change s.pending < b + 1 at hz
    change s.advanced.pending < b
    omega

theorem Leads.imp {R : α → State → Prop} {E' : Prop} (h : Leads E p s R) (hE : E → E') :
    Leads E' p s R := by
  unfold Leads at h ⊢
  cases hrun : p s with
  | ok a s' =>
    rw [hrun] at h
    exact h
  | failed s' =>
    rw [hrun] at h
    exact h
  | exhausted =>
    rw [hrun] at h
    exact hE h

theorem Goes.imp {E' : Prop} (h : Goes E z p) (hE : E → E') : Goes E' z p :=
  fun s hs hz => (h s hs hz).imp hE

/-! ### Steps -/

theorem goes_of_eq {g : State → α} (h : ∀ s, p s = .ok (g s) s) : Goes E z p := by
  intro s _ _
  unfold Leads
  rw [h]
  exact ⟨.refl s, trivial⟩

theorem goes_current : Goes E z current := goes_of_eq fun _ => rfl

theorem goes_here : Goes E z here := goes_of_eq fun _ => rfl

theorem goes_spanFrom {start : Location} : Goes E z (spanFrom start) :=
  goes_of_eq fun _ => rfl

theorem goes_currentIs {kind : Token.Kind} : Goes E z (currentIs kind) :=
  goes_of_eq fun _ => rfl

theorem goes_nextIs {kind : Token.Kind} : Goes E z (nextIs kind) :=
  goes_of_eq fun _ => rfl

theorem goes_nextKind : Goes E z nextKind := goes_of_eq fun _ => rfl

theorem goes_insideCase : Goes E z insideCase := goes_of_eq fun _ => rfl

theorem goes_nameHere : Goes E z nameHere := goes_of_eq fun _ => rfl

section

variable {R : β → State → Prop}

theorem leads_current_bind {f : Token → Parser β} :
    Leads E (current >>= f) s R ↔ Leads E (f s.current) s R := Iff.rfl

theorem leads_here_bind {f : Location → Parser β} :
    Leads E (here >>= f) s R ↔ Leads E (f (locationOf s s.current)) s R := Iff.rfl

theorem leads_currentIs_bind {f : Bool → Parser β} {kind : Token.Kind} :
    Leads E (currentIs kind >>= f) s R ↔
      Leads E (f (s.current.kind == kind)) s R := Iff.rfl

theorem leads_nextIs_bind {f : Bool → Parser β} {kind : Token.Kind} :
    Leads E (nextIs kind >>= f) s R ↔
      Leads E (f (s.next.kind == kind)) s R := Iff.rfl

theorem leads_nextKind_bind {f : Token.Kind → Parser β} :
    Leads E (nextKind >>= f) s R ↔ Leads E (f s.next.kind) s R := Iff.rfl

theorem leads_nameHere_bind {f : Name → Parser β} :
    Leads E (nameHere >>= f) s R ↔
      Leads E (f { text := s.current.text, loc := locationOf s s.current }) s R :=
  Iff.rfl

theorem leads_advance_bind {f : Unit → Parser β}
    (h : Leads E (f ()) s.advanced R) :
    Leads E (advance >>= f) s R := by
  unfold Leads at h ⊢
  rw [bind_ok (advance_eq s)]
  exact h.trans s.forward_advanced

end

theorem leads_advance : Leads E advance s fun _ s' => s' = s.advanced := by
  unfold Leads
  rw [advance_eq]
  exact ⟨s.forward_advanced, rfl⟩

theorem advances_advance : Advances E z advance :=
  fun _ _ _ => leads_advance.mono fun _ s' _ heq => heq ▸ .refl s'

theorem goes_advance : Goes E z advance := advances_advance.goes

theorem leads_fail {R : α → State → Prop} {problem : Problem} {loc : Location} :
    Leads E (fail problem loc : Parser α) s R := State.Forward.stay rfl

theorem leads_unexpected {R : α → State → Prop} {expected : String} :
    Leads E (unexpected expected : Parser α) s R := State.Forward.stay rfl

theorem leads_failAtNext {R : α → State → Prop} {expected : String} :
    Leads E (failAtNext expected : Parser α) s R := State.Forward.stay rfl

theorem goes_giveUp : Goes E z (giveUp : Parser α) := fun s _ _ => .refl s

theorem goes_fail {problem : Problem} {loc : Location} :
    Goes E z (fail problem loc : Parser α) := fun _ _ _ => leads_fail

theorem goes_unexpected {expected : String} :
    Goes E z (unexpected expected : Parser α) := fun _ _ _ => leads_unexpected

theorem goes_failAtNext {expected : String} :
    Goes E z (failAtNext expected : Parser α) := fun _ _ _ => leads_failAtNext

/-- Behind an expected token the parser stands on it. -/
theorem leads_expect {kind : Token.Kind} :
    Leads E (expect kind) s fun _ s' => s' = s.advanced ∧ s.next.kind = kind := by
  unfold expect
  rw [leads_nextIs_bind]
  split
  · next hkind =>
    rw [beq_iff_eq] at hkind
    exact leads_advance.mono fun _ _ _ heq => ⟨heq, hkind⟩
  · exact leads_failAtNext

theorem advances_expect {kind : Token.Kind} : Advances E z (expect kind) :=
  fun _ _ _ => leads_expect.mono fun _ s' _ h => h.1 ▸ .refl s'

theorem goes_expect {kind : Token.Kind} : Goes E z (expect kind) := advances_expect.goes

/-- A comma is taken only if it is there. -/
theorem leads_takeComma :
    Leads E takeComma s fun taken s' =>
      taken = true → s' = s.advanced ∧ s.next.kind = .comma := by
  unfold takeComma
  rw [leads_nextIs_bind]
  split
  · next hcomma =>
    rw [beq_iff_eq] at hcomma
    exact leads_advance_bind (leads_pure fun _ => ⟨rfl, hcomma⟩)
  · exact leads_pure nofun

/-- Behind one token fewer of them are pending. -/
theorem Goes.advance_bind {f : Unit → Parser β} (hf : Goes E (.below b) (f ())) :
    Goes E (.nearly b) (advance >>= f) :=
  fun s hs hz => leads_advance_bind (hf s.advanced hs.advanced hz)

/-- The same, with the move. -/
theorem Advances.advance_bind {f : Unit → Parser β} (hf : Goes E (.below b) (f ())) :
    Advances E (.nearly b) (advance >>= f) :=
  fun s hs hz => leads_advance_bind
    ((hf s.advanced hs.advanced hz).mono fun _ _ hforward _ => hforward)

theorem Goes.expect_bind {f : Unit → Parser β} {kind : Token.Kind}
    (hf : Goes E (.below b) (f ())) : Goes E (.nearly b) (expect kind >>= f) := by
  intro s hs hz
  refine leads_expect.bind ?_
  rintro _ s' _ ⟨rfl, -⟩
  exact hf s.advanced hs.advanced hz

theorem Goes.inCaseValues (h : Goes E z p) : Goes E z (inCaseValues p) := by
  intro s hs hz
  have hsame : s.Forward { s with inCase := true } := .stay rfl
  have hp := h { s with inCase := true } (hs.congr rfl) (z.stays hs hsame hz)
  unfold Leads at hp ⊢
  unfold Parser.inCaseValues
  cases hrun : p { s with inCase := true } with
  | ok a s' =>
    rw [hrun] at hp
    exact ⟨(hsame.trans hp.1).trans (.stay rfl), trivial⟩
  | failed s' =>
    rw [hrun] at hp
    exact (hsame.trans hp).trans (.stay rfl)
  | exhausted =>
    rw [hrun] at hp
    exact hp

theorem Goes.optional (h : Goes E z p) : Goes E z (optional p) := by
  intro s hs hz
  have hp := h s hs hz
  unfold Leads at hp ⊢
  unfold Parser.optional
  cases hrun : p s with
  | ok a s' =>
    rw [hrun] at hp
    exact hp
  | failed s' =>
    rw [hrun] at hp
    exact ⟨hp, trivial⟩
  | exhausted =>
    rw [hrun] at hp
    exact hp

/-! ### Loops -/

/-- A token that is consumed pays for the next pass. -/
theorem leads_iterate {body : σ → Parser (Pass σ β)} (hbody : Loops E z body)
    (fuel : List Token) (state : σ) {s : State} (hs : s.Ended) (hz : z.holds s)
    (hfuel : s.pending < fuel.length) :
    Leads E (iterate body fuel state) s fun _ _ => True := by
  induction fuel generalizing state s with
  | nil => cases hfuel
  | cons t fuel ih =>
    have hpass := hbody state s hs hz
    unfold Leads at hpass ih ⊢
    unfold iterate
    cases hrun : body state s with
    | ok pass s' =>
      rw [hrun] at hpass
      obtain ⟨hforward, hconsumed⟩ := hpass
      cases pass with
      | again state' =>
        have hlt := State.Consumes.pending_lt hconsumed hs
        rw [List.length_cons] at hfuel
        exact (ih state' (hs.forward hforward) (z.stays hs hforward hz)
          (by omega)).trans hforward
      | done result => exact ⟨hforward, trivial⟩
    | failed s' =>
      rw [hrun] at hpass
      exact hpass
    | exhausted =>
      rw [hrun] at hpass
      exact hpass

theorem goes_repeated {body : σ → Parser (Pass σ β)} (hbody : Loops E z body)
    (state : σ) : Goes E z (repeated body state) :=
  fun s hs hz => leads_iterate hbody (s.current :: s.tokens) state hs hz s.pending_lt_passes

end Parser

end Script
