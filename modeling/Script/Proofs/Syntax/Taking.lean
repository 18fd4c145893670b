import Mathlib.Tactic.Abel
import Script.Proofs.Syntax.Spans
import Script.Proofs.Syntax.Words

/-!
# What a parser takes

Between two states a parser takes words: those of its result, and those of blocks that
are not in it.  Only the `default` blocks of a `switch` that has another one behind them
get lost, so where one is lost another one is left.  Every parser takes nothing else as
long as nothing is recorded.
-/

namespace Script

namespace Parser

variable {α σ : Type} {file : String} {all : List Token} {s s' s'' : State}
  {ws ws' : Multiset Word}

/-- The words from the current token on. -/
def State.words (s : State) : Multiset Word := wordsOfTokens s.tokens

/-- The words of blocks with the word `default` in front of each. -/
def wordsOfLost (lost : List Block) : Multiset Word :=
  (lost.map fun b => {.default} + b.words).sum

theorem wordsOfLost_cons (b : Block) (lost : List Block) :
    wordsOfLost (b :: lost) = {.default} + b.words + wordsOfLost lost := by
  rw [wordsOfLost, List.map_cons, List.sum_cons]
  rfl

theorem wordsOfLost_append (lost lost' : List Block) :
    wordsOfLost (lost ++ lost') = wordsOfLost lost + wordsOfLost lost' := by
  simp [wordsOfLost]

namespace State

/-- From the current token of one state up to that of another one the words are taken,
unless something is recorded. -/
structure Reads (file : String) (all : List Token) (s s' : State) (ws : Multiset Word) :
    Prop where
  top : s'.Over file all
  grows : s.errors.size ≤ s'.errors.size
  words : s'.errors.size = s.errors.size →
    ∃ lost, s.words = ws + wordsOfLost lost + s'.words ∧ (lost ≠ [] → .default ∈ ws)

/-- The same with the current token of the second state. -/
structure Takes (file : String) (all : List Token) (s s' : State) (ws : Multiset Word) :
    Prop where
  top : s'.Over file all
  reads : s.Reads file all s'.advanced ws

/-! ### Single tokens -/

theorem words_of_tokens (htokens : s'.tokens = s.tokens) : s'.words = s.words := by
  rw [State.words, State.words, htokens]

/-- A step takes the current token. -/
theorem Over.words_eq (hs : s.Over file all) :
    s.words = s.current.words + s.advanced.words := by
  have hlast := hs.ended.last
  unfold State.words
  rw [tokens_advanced]
  unfold State.tokens at hlast ⊢
  split
  · next hrest =>
    rw [hrest] at hlast ⊢
    have hnext : s.next.words = 0 := by
      apply Token.words_eq_zero
      rw [hlast s.next rfl]
      rfl
    simp [wordsOfTokens, hnext]
  · simp [wordsOfTokens]

/-- At the end of input there are no words left. -/
theorem Over.words_eq_zero (hs : s.Over file all) (heof : s.current.kind = .eof) :
    s.words = 0 := by
  have hnone : ∀ t ∈ s.tokens, t.words = 0 := by
    intro t ht
    apply Token.words_eq_zero
    rcases List.mem_cons.mp ht with rfl | ht
    · rw [heof]
      rfl
    · rw [(List.pairwise_cons.mp hs.ended.stays).1 t ht heof]
      rfl
  rw [State.words, wordsOfTokens, List.sum_eq_zero]
  simpa using hnone

/-! ### Reading -/

theorem Over.reads (hs : s.Over file all) : s.Reads file all s 0 :=
  ⟨hs, le_refl _, fun _ => ⟨[], by simp [wordsOfLost], by simp⟩⟩

namespace Reads

theorem congr (h : s.Reads file all s' ws) (hws : ws = ws') : s.Reads file all s' ws' :=
  hws ▸ h

theorem trans (h : s.Reads file all s' ws) (h' : s'.Reads file all s'' ws') :
    s.Reads file all s'' (ws + ws') := by
  refine ⟨h'.top, h.grows.trans h'.grows, fun hsize => ?_⟩
  have hgrows := h.grows
  have hgrows' := h'.grows
  obtain ⟨lost, hwords, hleft⟩ := h.words (by omega)
  obtain ⟨lost', hwords', hleft'⟩ := h'.words (by omega)
  refine ⟨lost ++ lost', ?_, fun hlost => Multiset.mem_add.mpr ?_⟩
  · rw [hwords, hwords', wordsOfLost_append]
    abel
  · by_cases hfirst : lost = []
    · exact Or.inr (hleft' (by simpa [hfirst] using hlost))
    · exact Or.inl (hleft hfirst)

theorem takes (h : s.Reads file all s' ws) :
    s.Takes file all s' (ws + s'.current.words) := by
  refine ⟨h.top, h.top.advanced, ?_, fun hsize => ?_⟩
  · rw [advanced_errors]
    exact h.grows
  · rw [advanced_errors] at hsize
    obtain ⟨lost, hwords, hleft⟩ := h.words hsize
    refine ⟨lost, ?_, fun hlost => Multiset.mem_add.mpr (Or.inl (hleft hlost))⟩
    rw [hwords, h.top.words_eq]
    abel

/-- The current token is no word. -/
theorem takesPlain {kind : Token.Kind} (h : s.Reads file all s' ws)
    (hcurrent : s'.current.kind = kind) (hkind : kind.isWord = false) :
    s.Takes file all s' ws := by
  have htakes := h.takes
  rwa [Token.words_eq_zero (hcurrent ▸ hkind), add_zero] at htakes

theorem add (h : s.Reads file all s' ws) (h' : s'.Takes file all s'' ws') :
    s.Takes file all s'' (ws + ws') :=
  ⟨h'.top, h.trans h'.reads⟩

/-- A block that is not in the result, where another default is. -/
theorem lose {b : Block} (h : s.Reads file all s' (ws + ({.default} + b.words)))
    (hleft : .default ∈ ws) : s.Reads file all s' ws := by
  refine ⟨h.top, h.grows, fun hsize => ?_⟩
  obtain ⟨lost, hwords, -⟩ := h.words hsize
  refine ⟨b :: lost, ?_, fun _ => hleft⟩
  rw [hwords, wordsOfLost_cons]
  abel

/-- What is recorded on the way excuses everything. -/
theorem of_recorded (h : s.Reads file all s' ws) (htop : s''.Over file all)
    (hgrows : s'.errors.size < s''.errors.size) : s.Reads file all s'' ws' := by
  have hsize := h.grows
  exact ⟨htop, by omega, fun heq => by omega⟩

end Reads

/-! ### Taking -/

theorem Over.takes (hs : s.Over file all) : s.Takes file all s s.current.words := by
  have htakes := hs.reads.takes
  rwa [zero_add] at htakes

/-- The current token is no word. -/
theorem Over.takesPlain {kind : Token.Kind} (hs : s.Over file all)
    (hcurrent : s.current.kind = kind) (hkind : kind.isWord = false) :
    s.Takes file all s 0 :=
  hs.reads.takesPlain hcurrent hkind

/-- The current token as a name. -/
theorem Over.takesName (hs : s.Over file all)
    (hkind : s.current.kind = .ident ∨ s.current.kind.isType = true) :
    s.Takes file all s {.name s.current.text} := by
  rw [← Token.words_of_name hkind]
  exact hs.takes

/-- Nothing is taken behind the current token. -/
theorem Over.takesNone (hs : s.Over file all) : s.advanced.Takes file all s 0 :=
  ⟨hs, hs.advanced.reads⟩

namespace Takes

theorem congr (h : s.Takes file all s' ws) (hws : ws = ws') : s.Takes file all s' ws' :=
  hws ▸ h

theorem add (h : s.Takes file all s' ws) (h' : s'.advanced.Takes file all s'' ws') :
    s.Takes file all s'' (ws + ws') :=
  h.reads.add h'

/-- Nothing is taken in front of what the second parser takes. -/
theorem only (h : s.Takes file all s' 0) (h' : s'.advanced.Takes file all s'' ws) :
    s.Takes file all s'' ws :=
  (h.add h').congr (zero_add ws)

/-- A step behind which the current token is a word. -/
theorem word (h : s.Takes file all s' ws) :
    s.Takes file all s'.advanced (ws + s'.advanced.current.words) :=
  h.reads.takes

/-- The next token as a name. -/
theorem name (h : s.Takes file all s' ws)
    (hnext : s'.next.kind = .ident ∨ s'.next.kind.isType = true) :
    s.Takes file all s'.advanced (ws + {.name s'.advanced.current.text}) := by
  have hname : s'.advanced.current.kind = .ident ∨
      s'.advanced.current.kind.isType = true := by
    rwa [advanced_current]
  rw [← Token.words_of_name hname]
  exact h.word

theorem onlyName (h : s.Takes file all s' 0)
    (hnext : s'.next.kind = .ident ∨ s'.next.kind.isType = true) :
    s.Takes file all s'.advanced {.name s'.advanced.current.text} :=
  (h.name hnext).congr (zero_add _)

/-- A step behind which the current token is no word. -/
theorem past {kind : Token.Kind} (h : s.Takes file all s' ws) (hnext : s'.next.kind = kind)
    (hkind : kind.isWord = false) : s.Takes file all s'.advanced ws :=
  h.reads.takesPlain (by rw [advanced_current, hnext]) hkind

/-- The mode for the values of a case does not matter. -/
theorem inCase {b b' : Bool}
    (h : ({ s with inCase := b } : State).advanced.Takes file all s' ws) :
    s.advanced.Takes file all ({ s' with inCase := b' } : State) ws := by
  have htokens : ({ s with inCase := b } : State).advanced.tokens = s.advanced.tokens :=
    tokens_advanced_congr rfl
  have htokens' : ({ s' with inCase := b' } : State).advanced.tokens = s'.advanced.tokens :=
    tokens_advanced_congr rfl
  have hover : ({ s' with inCase := b' } : State).Over file all := h.top.congr rfl rfl
  refine ⟨hover, hover.advanced, ?_, fun hsize => ?_⟩
  · have hgrows := h.reads.grows
    simpa [advanced_errors] using hgrows
  · obtain ⟨lost, hwords, hleft⟩ := h.reads.words (by simpa [advanced_errors] using hsize)
    refine ⟨lost, ?_, hleft⟩
    rw [← words_of_tokens htokens, hwords, words_of_tokens htokens']

end Takes

end State

end Parser

end Script
