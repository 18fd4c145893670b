import Script.Proofs.Syntax.Running

/-!
# The cursor

A parser moves over tokens, and behind the last one it stays.  `Forward` says that one
state stands where another comes to by moving on, and `pending` counts the tokens that
are still to be taken.  At the end of input nothing is pending, and as long as a state
is `Ended` it gets there: every move takes a token off, until the end of input is the
current one.
-/

namespace Script

namespace Parser

namespace State

variable {s s' s'' : State}

/-- The current token and those in front of it. -/
def tokens (s : State) : List Token := s.current :: s.next :: s.rest

/-- `s'` stands where `s` comes to by moving on, if it moves at all. -/
inductive Forward : State → State → Prop where
  | stay {s s' : State} (htokens : s'.tokens = s.tokens) : Forward s s'
  | move {s s' : State} (h : Forward s.advanced s') : Forward s s'

/-- A token that is the end of input has nothing else behind it, and the last token is
the end of input. -/
structure Ended (s : State) : Prop where
  stays : s.tokens.Pairwise fun t t' => t.kind = .eof → t'.kind = .eof
  last : ∀ t ∈ s.tokens.getLast?, t.kind = .eof

/-- How many tokens are to be taken before the end of input. -/
def pending (s : State) : Nat := s.tokens.countP fun t => t.kind ≠ .eof

/-- The current token is not the end of input, and the move takes it. -/
structure Consumes (s s' : State) : Prop where
  not_eof : s.current.kind ≠ .eof
  forward : s.advanced.Forward s'

/-! ### Moving on -/

theorem tokens_advanced (s : State) :
    s.advanced.tokens = if s.rest = [] then [s.next, s.next] else s.next :: s.rest := by
  unfold State.advanced State.tokens
  split
  · next h => simp [h]
  · next t rest h => simp [h]

theorem tokens_advanced_congr (h : s'.tokens = s.tokens) :
    s'.advanced.tokens = s.advanced.tokens := by
  obtain ⟨-, hnext, hrest⟩ : s'.current = s.current ∧ s'.next = s.next ∧
      s'.rest = s.rest := by
    simpa [State.tokens] using h
  rw [tokens_advanced, tokens_advanced, hnext, hrest]

theorem Forward.refl (s : State) : s.Forward s := .stay rfl

theorem forward_advanced (s : State) : s.Forward s.advanced := .move (.refl _)

theorem Forward.of_tokens (h : s.Forward s'') (htokens : s'.tokens = s.tokens) :
    s'.Forward s'' := by
  induction h generalizing s' with
  | stay h => exact .stay (h.trans htokens.symm)
  | move _ ih => exact .move (ih (tokens_advanced_congr htokens))

theorem Forward.trans (h : s.Forward s') (h' : s'.Forward s'') : s.Forward s'' := by
  induction h with
  | stay htokens => exact h'.of_tokens htokens.symm
  | move _ ih => exact .move (ih h')

theorem Forward.advanced (h : s.Forward s') : s.advanced.Forward s'.advanced := by
  induction h with
  | stay htokens => exact .stay (tokens_advanced_congr htokens)
  | move _ ih => exact .move ih

/-! ### The end of input -/

theorem Ended.congr (h : s.Ended) (htokens : s'.tokens = s.tokens) : s'.Ended :=
  ⟨by rw [htokens]; exact h.stays, by rw [htokens]; exact h.last⟩

theorem Ended.advanced (h : s.Ended) : s.advanced.Ended := by
  obtain ⟨hstays, hlast⟩ := h
  unfold State.tokens at hstays hlast
  refine ⟨?_, ?_⟩ <;> rw [tokens_advanced]
  · split
    · simp
    · exact (List.pairwise_cons.mp hstays).2
  · split
    · next hrest =>
      rw [hrest] at hlast
      exact hlast
    · rwa [List.getLast?_cons_cons] at hlast

theorem Ended.forward (hs : s.Ended) (h : s.Forward s') : s'.Ended := by
  induction h with
  | stay htokens => exact hs.congr htokens
  | move _ ih => exact ih hs.advanced

theorem Ended.next_eof (hs : s.Ended) (hcurrent : s.current.kind = .eof) :
    s.next.kind = .eof :=
  (List.pairwise_cons.mp hs.stays).1 s.next List.mem_cons_self hcurrent

theorem Ended.current_eof (hs : s.Ended) (h : s.Forward s')
    (hcurrent : s.current.kind = .eof) : s'.current.kind = .eof := by
  induction h with
  | stay htokens => rwa [(List.cons.inj htokens).1]
  | @move s s' _ ih =>
    refine ih hs.advanced ?_
    rw [advanced_current]
    exact hs.next_eof hcurrent

/-! ### Pending tokens -/

theorem pending_congr (h : s'.tokens = s.tokens) : s'.pending = s.pending := by
  unfold pending
  rw [h]

/-- A loop has more passes than tokens are pending. -/
theorem pending_lt_passes (s : State) : s.pending < (s.current :: s.tokens).length :=
  Nat.lt_succ_of_le List.countP_le_length

theorem Ended.pending_advanced (hs : s.Ended) (hcurrent : s.current.kind ≠ .eof) :
    s.advanced.pending + 1 = s.pending := by
  have hlast := hs.last
  unfold pending
  rw [tokens_advanced]
  unfold State.tokens at hlast ⊢
  split
  · next hrest =>
    rw [hrest] at hlast ⊢
    have hnext : s.next.kind = .eof := hlast s.next rfl
    simp [hcurrent, hnext]
  · simp [hcurrent]

theorem Ended.pending_eq_zero (hs : s.Ended) (hcurrent : s.current.kind = .eof) :
    s.pending = 0 := by
  unfold pending
  rw [List.countP_eq_zero]
  intro t ht
  rcases List.mem_cons.mp ht with rfl | ht
  · simpa using hcurrent
  · simpa using (List.pairwise_cons.mp hs.stays).1 t ht hcurrent

theorem Ended.pending_advanced_le (hs : s.Ended) : s.advanced.pending ≤ s.pending := by
  by_cases hcurrent : s.current.kind = .eof
  · have heof := hs.current_eof (forward_advanced s) hcurrent
    rw [hs.advanced.pending_eq_zero heof]
    exact Nat.zero_le _
  · have heq := hs.pending_advanced hcurrent
    omega

theorem Forward.pending_le (h : s.Forward s') (hs : s.Ended) :
    s'.pending ≤ s.pending := by
  induction h with
  | stay htokens => exact Nat.le_of_eq (pending_congr htokens)
  | move _ ih => exact Nat.le_trans (ih hs.advanced) hs.pending_advanced_le

theorem Consumes.pending_lt (h : s.Consumes s') (hs : s.Ended) :
    s'.pending < s.pending := by
  have hle := h.forward.pending_le hs.advanced
  have heq := hs.pending_advanced h.not_eof
  omega

theorem Consumes.toForward (h : s.Consumes s') : s.Forward s' := .move h.forward

/-- A move to a token that is not the end of input takes the current one. -/
theorem Ended.consumes (hs : s.Ended) (h : s.advanced.Forward s')
    (hcurrent : s'.current.kind ≠ .eof) : s.Consumes s' :=
  ⟨fun heof => hcurrent (hs.current_eof (.move h) heof), h⟩

end State

end Parser

end Script
