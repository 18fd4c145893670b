import Script.Proofs.Syntax.Lexemes
import Script.Syntax.Parser

/-!
# Runs of a parser

`Runs p s Q` says that a parser succeeds and what is true then of its result and
of the state it leaves.  A state is seen through the lexemes that it has in front
of it: `Faces` leaves out the current token, and `Views` starts with it.
-/

namespace Script.Parser

open Lexeme (sign)

variable {α β σ : Type}

/-! ### What a state has in front of it -/

namespace State

def ahead (s : State) : List Lexeme := s.next.lexeme :: s.rest.map Token.lexeme

/-- The state after one token more. -/
def advanced (s : State) : State :=
  match s.rest with
  | [] => { s with current := s.next }
  | t :: rest => { s with current := s.next, next := t, rest }

theorem advanced_current (s : State) : s.advanced.current = s.next := by
  unfold State.advanced
  split <;> rfl

theorem advanced_errors (s : State) : s.advanced.errors = s.errors := by
  unfold State.advanced
  split <;> rfl

/-- What stands behind the current token, whether the state is inside the values
of a `case`, and that nothing has been reported. -/
structure Faces (s : State) (inCase : Bool) (lexemes : List Lexeme) : Prop where
  ahead : s.ahead = lexemes
  inCase : s.inCase = inCase
  clean : s.errors = #[]

/-- The same with the current token. -/
structure Views (s : State) (inCase : Bool) (lexemes : List Lexeme) : Prop where
  view : s.current.lexeme :: s.ahead = lexemes
  inCase : s.inCase = inCase
  clean : s.errors = #[]

variable {s : State} {b : Bool} {l x : Lexeme} {ls r : List Lexeme}

theorem Faces.next_kind (h : s.Faces b (x :: r)) : s.next.kind = x.kind :=
  congrArg Lexeme.kind (List.cons.inj h.ahead).1

theorem Faces.next_sign {kind : Token.Kind} (h : s.Faces b (sign kind :: r)) :
    s.next.kind = kind :=
  h.next_kind

theorem Views.current_kind (h : s.Views b (l :: ls)) : s.current.kind = l.kind :=
  congrArg Lexeme.kind (List.cons.inj h.view).1

theorem Views.current_sign {kind : Token.Kind} (h : s.Views b (sign kind :: ls)) :
    s.current.kind = kind :=
  h.current_kind

theorem Views.current_text (h : s.Views b (l :: ls)) : s.current.text = l.text :=
  congrArg Lexeme.text (List.cons.inj h.view).1

theorem Views.faces (h : s.Views b (l :: ls)) : s.Faces b ls :=
  ⟨(List.cons.inj h.view).2, h.inCase, h.clean⟩

theorem Views.next_kind (h : s.Views b (l :: x :: r)) : s.next.kind = x.kind :=
  h.faces.next_kind

theorem Faces.advanced_cons (h : s.Faces b (l :: x :: r)) :
    s.advanced.Views b (l :: x :: r) := by
  obtain ⟨hahead, hcase, hclean⟩ := h
  unfold State.ahead at hahead
  unfold State.advanced
  split
  · next hrest => simp [hrest] at hahead
  · next t rest hrest =>
    rw [hrest] at hahead
    exact ⟨hahead, hcase, hclean⟩

theorem Faces.advanced (h : s.Faces b (l :: ls)) (hls : ls ≠ []) :
    s.advanced.Views b (l :: ls) := by
  cases ls with
  | nil => contradiction
  | cons x r => exact h.advanced_cons

theorem Faces.advanced_append (h : s.Faces b (ls ++ x :: r)) (hls : ls ≠ []) :
    s.advanced.Views b (ls ++ x :: r) := by
  cases ls with
  | nil => contradiction
  | cons l ls => exact Faces.advanced h (by simp)

/-- Two lexemes at the end are enough. -/
theorem Faces.advanced_two {y : Lexeme} (h : s.Faces b (ls ++ x :: y :: r)) :
    s.advanced.Views b (ls ++ x :: y :: r) := by
  cases ls with
  | nil => exact h.advanced_cons
  | cons l ls => exact Faces.advanced h (by simp)

/-- One token further. -/
theorem Faces.step (h : s.Faces b (l :: ls)) (hls : ls ≠ []) :
    s.advanced.Faces b ls :=
  (h.advanced hls).faces

/-- At the last token the state stays in front of it. -/
theorem Faces.advanced_last (h : s.Faces b [x]) : s.advanced.Views b [x, x] := by
  obtain ⟨hahead, hcase, hclean⟩ := h
  unfold State.ahead at hahead
  unfold State.advanced
  split
  · next hrest =>
    have hnext := (List.cons.inj hahead).1
    refine ⟨?_, hcase, hclean⟩
    simp [State.ahead, hrest, hnext]
  · next t rest hrest => simp [hrest] at hahead

end State

/-! ### Success -/

def Runs (p : Parser α) (s : State) (Q : α → State → Prop) : Prop :=
  ∃ a s', p s = .ok a s' ∧ Q a s'

variable {p : Parser α} {f : α → Parser β} {s : State} {Q : α → State → Prop}
  {R : β → State → Prop}

theorem Runs.mono {Q' : α → State → Prop} (h : Runs p s Q)
    (hQ : ∀ a s', Q a s' → Q' a s') : Runs p s Q' := by
  obtain ⟨a, s', hrun, ha⟩ := h
  exact ⟨a, s', hrun, hQ a s' ha⟩

theorem bind_eq (p : Parser α) (f : α → Parser β) (s : State) :
    (p >>= f) s = match p s with
      | .ok value s => f value s
      | .failed s => .failed s
      | .exhausted => .exhausted := rfl

theorem bind_ok {a : α} {s' : State} (hrun : p s = .ok a s') :
    (p >>= f) s = f a s' := by
  rw [bind_eq, hrun]

theorem Runs.bind (h : Runs p s Q)
    (hf : ∀ a s', Q a s' → Runs (f a) s' R) : Runs (p >>= f) s R := by
  obtain ⟨a, s', hrun, ha⟩ := h
  obtain ⟨c, s'', hrun', hc⟩ := hf a s' ha
  exact ⟨c, s'', (bind_ok hrun).trans hrun', hc⟩

/-! ### Steps that always succeed -/

@[simp]
theorem runs_current_bind {f : Token → Parser β} :
    Runs (current >>= f) s R ↔ Runs (f s.current) s R := Iff.rfl

@[simp]
theorem runs_here_bind {f : Location → Parser β} :
    Runs (here >>= f) s R ↔ Runs (f (locationOf s s.current)) s R := Iff.rfl

@[simp]
theorem runs_spanFrom_bind {f : Location → Parser β} {start : Location} :
    Runs (spanFrom start >>= f) s R ↔
      Runs (f (start.through (locationOf s s.current))) s R := Iff.rfl

@[simp]
theorem runs_currentIs_bind {f : Bool → Parser β} {kind : Token.Kind} :
    Runs (currentIs kind >>= f) s R ↔ Runs (f (s.current.kind == kind)) s R :=
  Iff.rfl

@[simp]
theorem runs_nextIs_bind {f : Bool → Parser β} {kind : Token.Kind} :
    Runs (nextIs kind >>= f) s R ↔ Runs (f (s.next.kind == kind)) s R := Iff.rfl

@[simp]
theorem runs_nextKind_bind {f : Token.Kind → Parser β} :
    Runs (nextKind >>= f) s R ↔ Runs (f s.next.kind) s R := Iff.rfl

@[simp]
theorem runs_insideCase_bind {f : Bool → Parser β} :
    Runs (insideCase >>= f) s R ↔ Runs (f s.inCase) s R := Iff.rfl

@[simp]
theorem runs_nameHere_bind {f : Name → Parser β} :
    Runs (nameHere >>= f) s R ↔
      Runs (f { text := s.current.text, loc := locationOf s s.current }) s R :=
  Iff.rfl

@[simp]
theorem runs_pure_iff {a : α} :
    Runs (Pure.pure a : Parser α) s Q ↔ Q a s := by
  refine ⟨?_, fun ha => ⟨a, s, rfl, ha⟩⟩
  rintro ⟨a', s', hrun, ha⟩
  cases hrun
  exact ha

theorem advance_eq (s : State) : advance s = .ok () s.advanced := by
  unfold advance State.advanced
  split <;> simp_all

@[simp]
theorem runs_advance_bind {f : Unit → Parser β} :
    Runs (advance >>= f) s R ↔ Runs (f ()) s.advanced R := by
  unfold Runs
  rw [bind_ok (advance_eq s)]

theorem expect_eq {kind : Token.Kind} (hkind : s.next.kind = kind) :
    expect kind s = .ok () s.advanced := by
  change (if (s.next.kind == kind) = true then advance else
    failAtNext kind.text) s = _
  rw [hkind, beq_self_eq_true, if_pos rfl, advance_eq]

/-- A token that is expected and there. -/
theorem runs_expect_bind {f : Unit → Parser β} {kind : Token.Kind}
    (hkind : s.next.kind = kind) :
    Runs (expect kind >>= f) s R ↔ Runs (f ()) s.advanced R := by
  unfold Runs
  rw [bind_ok (expect_eq hkind)]

/-! ### Loops -/

/-- A loop has a pass for every token that is left. -/
theorem runs_repeated {body : σ → Parser (Pass σ β)} {state : σ}
    (h : ∀ fuel : List Token, s.ahead.length ≤ fuel.length →
      Runs (iterate body fuel state) s R) : Runs (repeated body state) s R := by
  refine h (s.current :: s.current :: s.next :: s.rest) ?_
  simp [State.ahead]

theorem iterate_of_again {body : σ → Parser (Pass σ β)} {state state' : σ}
    {s' : State} (hrun : body state s = .ok (.again state') s') (t : Token)
    (fuel : List Token) :
    iterate body (t :: fuel) state s = iterate body fuel state' s' := by
  simp only [iterate]
  rw [hrun]

theorem iterate_of_done {body : σ → Parser (Pass σ β)} {state : σ} {result : β}
    {s' : State} (hrun : body state s = .ok (.done result) s') (t : Token)
    (fuel : List Token) :
    iterate body (t :: fuel) state s = .ok result s' := by
  simp only [iterate]
  rw [hrun]

theorem runs_iterate_done {body : σ → Parser (Pass σ β)} {state : σ}
    {fuel : List Token} (hfuel : s.ahead.length ≤ fuel.length)
    (h : Runs (body state) s fun pass s' =>
      ∃ result, pass = .done result ∧ R result s') :
    Runs (iterate body fuel state) s R := by
  cases fuel with
  | nil => simp [State.ahead] at hfuel
  | cons t fuel =>
    obtain ⟨pass, s', hrun, result, rfl, hresult⟩ := h
    exact ⟨result, s', iterate_of_done hrun t fuel, hresult⟩

/-- One pass; it has to take a token, so that the passes last. -/
theorem iterate_again {body : σ → Parser (Pass σ β)} {state : σ}
    {fuel : List Token} (hfuel : s.ahead.length ≤ fuel.length)
    {Q : σ → State → Prop}
    (h : Runs (body state) s fun pass s' =>
      ∃ state', pass = .again state' ∧ s'.ahead.length < s.ahead.length ∧
        Q state' s') :
    ∃ fuel' state' s', s'.ahead.length ≤ fuel'.length ∧ Q state' s' ∧
      iterate body fuel state s = iterate body fuel' state' s' := by
  cases fuel with
  | nil => simp [State.ahead] at hfuel
  | cons t fuel =>
    obtain ⟨pass, s', hrun, state', rfl, hlt, hQ⟩ := h
    refine ⟨fuel, state', s', ?_, hQ, iterate_of_again hrun t fuel⟩
    rw [List.length_cons] at hfuel
    omega

theorem runs_iterate_again {body : σ → Parser (Pass σ β)} {state : σ}
    {fuel : List Token} (hfuel : s.ahead.length ≤ fuel.length)
    (h : Runs (body state) s fun pass s' =>
      ∃ state', pass = .again state' ∧ s'.ahead.length < s.ahead.length ∧
        ∀ fuel' : List Token, s'.ahead.length ≤ fuel'.length →
          Runs (iterate body fuel' state') s' R) :
    Runs (iterate body fuel state) s R := by
  obtain ⟨fuel', state', s', hfuel', hrest, heq⟩ := iterate_again hfuel h
  obtain ⟨result, s'', hrun, hresult⟩ := hrest fuel' hfuel'
  exact ⟨result, s'', heq.trans hrun, hresult⟩

end Script.Parser
