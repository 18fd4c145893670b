import Script.Proofs.Syntax.Passes
import Script.Proofs.Syntax.Yielding

/-!
# What declarations are made of

The types, functions and declarations that the parser makes of any source are
well formed.  The productions may contain others; of these only what is asked in
`Grammar.Sound` is used.
-/

namespace Script

/-! ### Numbers -/

/-- Digits without a sign are read as their value. -/
theorem Numeral.toInt_of_int64? {text : List Char} {n : Int64}
    (hne : text ≠ []) (hall : text.all Cursor.isDigit = true)
    (hn : int64? text = some n) : n.toInt = valueFrom 0 text := by
  cases text with
  | nil => contradiction
  | cons c rest =>
    rw [List.all_cons, Bool.and_eq_true] at hall
    have hc : startsDecimal c = true := by
      unfold startsDecimal
      rw [show isDigit c = true from hall.1]
      rfl
    unfold int64? at hn
    rw [splitSign_of_startsDecimal hc] at hn
    obtain ⟨m, hvalue, hm⟩ := Option.bind_eq_some_iff.mp hn
    unfold digits? at hvalue
    split at hvalue
    · obtain rfl := Option.some.inj hvalue
      rw [if_neg Bool.false_ne_true] at hm
      split at hm
      · next hlt =>
        obtain rfl := Option.some.inj hm
        exact Int64.toInt_ofNat_of_lt (by simpa using (hlt : _ < 2 ^ 63))
      · cases hm
    · cases hvalue

/-- Without a sign there is no way to a negative number. -/
theorem Numeral.nonneg_of_int64? {text : List Char} {n : Int64}
    (hne : text ≠ []) (hall : text.all Cursor.isDigit = true)
    (hn : int64? text = some n) : 0 ≤ n := by
  rw [Int64.le_iff_toInt_le, toInt_of_int64? hne hall hn]
  exact Int.natCast_nonneg _

/-- The smallest integer has no counterpart, so no literal stands for it. -/
theorem Numeral.ne_minValue_of_nonneg {n : Int64} (hn : 0 ≤ n) :
    n ≠ Int64.minValue ∧ -n ≠ Int64.minValue := by
  have hpos : 0 ≤ n.toInt := Int64.le_iff_toInt_le.mp hn
  have hmin : Int64.minValue.toInt = -2 ^ 63 := Int64.toInt_minValue
  have hlt := n.toInt_lt
  have hne : n ≠ Int64.minValue := by
    rintro rfl
    omega
  refine ⟨hne, fun heq => ?_⟩
  have hneg := toInt_neg_of_ne hne
  rw [heq] at hneg
  omega

namespace Parser

open Node (Formed)

/-- The productions inside others make well-formed trees. -/
structure Grammar.Sound (g : Grammar) : Prop where
  expression : ∀ precedence,
    Parser.Sound (g.expression precedence) fun e => (Node.expr e).Formed
  statement : Parser.Sound g.statement fun st => (Node.stmt st).Formed
  branch : Parser.Sound g.branch fun e => (Node.expr e).Formed
  type : Parser.Sound g.type fun t => t.isWellFormed = true

/-- The token was made by the lexer, so its text is digits only. -/
theorem sound_integerHere {s : State} (hs : s.Proper)
    (hkind : s.current.kind = .int) :
    Yields integerHere s fun n _ => 0 ≤ n := by
  unfold integerHere
  rw [yields_current_bind]
  split
  · next n hn =>
    obtain ⟨hne, hall⟩ := hs.current.int hkind
    exact yields_pure hs (Numeral.nonneg_of_int64? hne hall hn)
  · rw [yields_here_bind]
    exact yields_fail hs

/-- The sign stands in front of a literal that is not negative. -/
theorem sound_signedInteger :
    Sound signedInteger fun n => n ≠ Int64.minValue := by
  intro s hs
  -- The sign does not matter: without it the number is not negative.
  have hrest : ∀ (negative : Bool) (s : State), s.Proper →
      Yields (do
        if ← currentIs .int then
          let n ← integerHere
          return if negative then -n else n
        else
          unexpected "integer") s fun n _ => n ≠ Int64.minValue := by
    intro negative s hs
    rw [yields_currentIs_bind]
    split
    · next hkind =>
      have hint := sound_integerHere hs (by simpa using hkind)
      refine Yields.bind hint fun n s' hs' hn => ?_
      obtain ⟨hpos, hneg⟩ := Numeral.ne_minValue_of_nonneg hn
      cases negative
      · exact yields_pure hs' hpos
      · exact yields_pure hs' hneg
    · exact yields_unexpected hs
  unfold signedInteger
  rw [yields_currentIs_bind]
  split
  · refine yields_advance_bind hs fun hs' => ?_
    exact hrest true s.advanced hs'
  · exact hrest false s hs

/-! ### Names -/

/-- A token of a name is spelled like one. -/
theorem State.Proper.nameHere {s : State} (hs : s.Proper)
    (hkind : s.current.kind = .ident) :
    Name.isIdentifier
      { text := s.current.text, loc := locationOf s s.current } = true :=
  hs.current.ident hkind

/-- The token of a name or of a type. -/
theorem State.Proper.isTerm {s : State} (hs : s.Proper)
    (hkind : s.current.kind = .ident ∨ s.current.kind.isType = true) :
    Syntax.isTerm s.current.text = true := by
  unfold Syntax.isTerm
  rcases hkind with hident | htype
  · rw [hs.current.ident hident]
    rfl
  · rw [hs.current.isTypeWord htype, Bool.or_true]

namespace Grammar

variable {g : Grammar}

/-- An operand is an expression behind the current token. -/
theorem Sound.operand (hg : g.Sound) :
    Parser.Sound g.operand fun e => (Node.expr e).Formed := by
  intro s hs
  unfold Grammar.operand
  exact yields_advance_bind hs fun hs' => hg.expression .lowest _ hs'

/-! ### Blocks -/

/-- What the loop over the statements preserves is that all read so far are well formed.
-/
theorem Sound.block (hg : g.Sound) :
    Parser.Sound g.block fun b => (Node.block b).Formed := by
  intro s hs
  unfold Grammar.block
  rw [yields_here_bind]
  refine yields_advance_bind hs fun hs' => ?_
  refine Yields.bind (sound_repeated
    (I := fun sts => ∀ st ∈ sts, (Node.stmt st).Formed)
    (R := fun sts => ∀ st ∈ sts, (Node.stmt st).Formed)
    (by simp) (fun sts hsts s hs => ?_) _ hs') fun sts s' hs' hsts => ?_
  · rw [yields_current_bind]
    split
    · refine yields_pure hs fun st hst => hsts st (List.mem_reverse.mp hst)
    · exact yields_unexpected hs
    · refine Yields.bind (hg.statement.optional s hs) fun st? s' hs' hst? => ?_
      refine yields_advance_bind hs' fun hs'' => ?_
      refine yields_pure hs'' fun st hst => ?_
      rcases List.mem_append.mp hst with hnew | hold
      · exact hst? st (Option.mem_toList.mp hnew)
      · exact hsts st hold
  · rw [yields_spanFrom_bind]
    exact yields_pure hs' (Node.formed_block hsts)

theorem Sound.nextBlock (hg : g.Sound) :
    Parser.Sound g.nextBlock fun b => (Node.block b).Formed := by
  intro s hs
  unfold Grammar.nextBlock
  exact yields_expect_bind hs fun hs' _ => hg.block _ hs'

/-! ### Types -/

/-- Types are well formed by the names that they are made of. -/
theorem Sound.typeHere (hg : g.Sound) :
    Parser.Sound g.typeHere fun t => t.isWellFormed = true := by
  intro s hs
  unfold Grammar.typeHere
  rw [yields_here_bind, yields_current_bind]
  split
  · refine yields_expect_bind hs fun hs' _ => ?_
    refine yields_advance_bind hs' fun hs'' => ?_
    refine Yields.bind (hg.type _ hs'') fun t s' hs' ht => ?_
    rw [yields_spanFrom_bind]
    exact yields_pure hs' ht
  · rw [yields_nextKind_bind]
    split
    · refine yields_advance_bind hs fun hs' => ?_
      refine yields_advance_bind hs' fun hs'' => ?_
      refine Yields.bind (hg.type _ hs'') fun key s' hs' hkey => ?_
      refine yields_expect_bind hs' fun hs'' _ => ?_
      refine yields_advance_bind hs'' fun hs''' => ?_
      refine Yields.bind (hg.type _ hs''') fun value s' hs' hvalue => ?_
      rw [yields_spanFrom_bind]
      refine yields_pure hs' ?_
      simp [TypeExpr.isWellFormed, hkey, hvalue]
    · split
      · next hkind => exact yields_pure hs (hs.isTerm hkind)
      · exact yields_unexpected hs

theorem Sound.typeMark? (hg : g.Sound) :
    Parser.Sound g.typeMark? fun t => t.all TypeExpr.isWellFormed = true := by
  intro s hs
  unfold Grammar.typeMark?
  rw [yields_nextIs_bind]
  split
  · refine yields_advance_bind hs fun hs' => ?_
    refine yields_advance_bind hs' fun hs'' => ?_
    refine Yields.bind (hg.type _ hs'') fun t s' hs' ht => ?_
    exact yields_pure hs' ht
  · exact yields_pure hs rfl

theorem Sound.nextType (hg : g.Sound) :
    Parser.Sound g.nextType fun t => t.isWellFormed = true := by
  intro s hs
  unfold Grammar.nextType
  exact yields_advance_bind hs fun hs' => hg.type _ hs'

/-! ### Functions -/

/-- A parameter is a name and, perhaps, a type. -/
theorem Sound.parameter (hg : g.Sound) :
    Parser.Sound g.parameter fun p =>
      p.1.isIdentifier = true ∧ p.2.all TypeExpr.isWellFormed = true := by
  intro s hs
  unfold Grammar.parameter
  refine yields_expect_bind hs fun hs' hkind => ?_
  rw [yields_nameHere_bind]
  refine Yields.bind (hg.typeMark? _ hs') fun t s'' hs'' ht => ?_
  exact yields_pure hs'' ⟨hs'.nameHere hkind, ht⟩

/-- A parameter without a type among others with one accepts anything, and that
can be written. -/
theorem settleParams_isWellFormed {params : List (Name × Option TypeExpr)}
    (hne : params ≠ [])
    (h : ∀ p ∈ params,
      p.1.isIdentifier = true ∧ p.2.all TypeExpr.isWellFormed = true) :
    (settleParams params).isWellFormed = true := by
  unfold settleParams
  split
  · have hall : ∀ p ∈ params, TypedName.isWellFormed
        ⟨p.1, p.2.getD (.named "any" p.1.loc)⟩ = true := by
      intro p hp
      obtain ⟨hname, htype⟩ := h p hp
      have hany : Syntax.isTerm "any" = true := by decide
      unfold TypedName.isWellFormed
      rw [hname, Bool.true_and]
      cases hp2 : p.2 with
      | none => exact hany
      | some t =>
        rw [hp2] at htype
        exact htype
    simpa [Params.isWellFormed, hne] using hall
  · simpa [Params.isWellFormed] using fun a t hp => (h (a, t) hp).1

theorem Sound.parameters (hg : g.Sound) :
    Parser.Sound g.parameters fun p => p.isWellFormed = true := by
  intro s hs
  unfold Grammar.parameters
  rw [yields_nextIs_bind]
  split
  · exact yields_advance_bind hs fun hs' => yields_pure hs' rfl
  · refine Yields.bind (sound_commaList hg.parameter s hs)
      fun params s' hs' hparams => ?_
    refine yields_expect_bind hs' fun hs'' _ => ?_
    exact yields_pure hs'' (settleParams_isWellFormed hparams.1 hparams.2)

/-- No return type, one of them, or several. -/
theorem Sound.returnTypes (hg : g.Sound) :
    Parser.Sound g.returnTypes fun ts =>
      ts.all TypeExpr.isWellFormed = true := by
  intro s hs
  unfold Grammar.returnTypes
  rw [yields_nextIs_bind]
  split
  · refine yields_advance_bind hs fun hs' => ?_
    rw [yields_nextIs_bind]
    split
    · refine yields_advance_bind hs' fun hs'' => ?_
      refine Yields.bind (sound_commaList hg.nextType _ hs'')
        fun ts s' hs' hts => ?_
      refine yields_expect_bind hs' fun hs'' _ => ?_
      exact yields_pure hs'' (List.all_eq_true.mpr hts.2)
    · refine Yields.bind (hg.nextType _ hs') fun t s' hs' ht => ?_
      exact yields_pure hs' (by simp [ht])
  · exact yields_pure hs rfl

/-- The name is not read here, so it stays the one that is given. -/
theorem Sound.functionRest (hg : g.Sound) (name : Option String)
    (start : Location) :
    Parser.Sound (g.functionRest name start) fun f =>
      (Node.function f).Formed ∧ f.name = name := by
  intro s hs
  unfold Grammar.functionRest
  refine Yields.bind (hg.parameters s hs) fun params s' hs' hparams => ?_
  refine Yields.bind (hg.returnTypes s' hs') fun returns s' hs' hreturns => ?_
  refine Yields.bind (hg.nextBlock s' hs') fun body s' hs' hbody => ?_
  rw [yields_spanFrom_bind]
  exact yields_pure hs' ⟨Node.formed_function hparams hreturns hbody, rfl⟩

/-! ### Declarations -/

/-- The form of the statement is kept, for the header of a loop. -/
theorem Sound.binding (hg : g.Sound) (constant : Bool) :
    Parser.Sound (g.binding constant) fun st => ∃ name type value loc,
      st = .bind constant name type value loc ∧ name.isIdentifier = true ∧
      type.all TypeExpr.isWellFormed = true ∧ (Node.expr value).Formed := by
  intro s hs
  unfold Grammar.binding
  rw [yields_here_bind]
  refine yields_expect_bind hs fun hs' hkind => ?_
  rw [yields_nameHere_bind]
  refine Yields.bind (hg.typeMark? _ hs') fun type s'' hs'' htype => ?_
  refine yields_expect_bind hs'' fun hs'' _ => ?_
  refine Yields.bind (hg.operand _ hs'') fun value s'' hs'' hvalue => ?_
  rw [yields_spanFrom_bind]
  exact yields_pure hs''
    ⟨_, _, _, _, rfl, hs'.nameHere hkind, htype, hvalue⟩

/-- Functions and methods have names of the same kind. -/
theorem Sound.definition (hg : g.Sound) :
    Parser.Sound g.definition fun st => (Node.stmt st).Formed := by
  intro s hs
  unfold Grammar.definition
  rw [yields_here_bind]
  refine yields_expect_bind hs fun hs' hkind => ?_
  rw [yields_nameHere_bind, yields_nextIs_bind]
  split
  · refine yields_advance_bind hs' fun hs'' => ?_
    refine yields_expect_bind hs'' fun hmethod hmkind => ?_
    rw [yields_current_bind]
    refine yields_expect_bind hmethod fun hs'' _ => ?_
    refine Yields.bind (hg.functionRest _ _ _ hs'') fun f s' hs'' hf => ?_
    rw [yields_spanFrom_bind]
    refine yields_pure hs'' (Node.formed_stmt [Node.function f]
      (fun _ => rfl) ?_ fun n hn => ?_)
    · unfold Node.stmtIsWellFormed
      simp only [hf.2, Option.any_some]
      rw [hs'.nameHere hkind]
      exact hmethod.current.ident hmkind
    · rw [List.mem_singleton.mp hn]
      exact hf.1
  · refine yields_expect_bind hs' fun hs'' _ => ?_
    refine Yields.bind (hg.functionRest _ _ _ hs'') fun f s' hs'' hf => ?_
    rw [yields_spanFrom_bind]
    exact yields_pure hs'' (Node.formed_bind (hs'.nameHere hkind) rfl
      (Node.formed_functionExpr hf.1))

theorem Sound.returning (hg : g.Sound) :
    Parser.Sound g.returning fun st => (Node.stmt st).Formed := by
  intro s hs
  have hnone : ∀ loc, (Node.stmt (.ret none loc)).Formed := fun loc =>
    Node.formed_stmt [] (fun _ => rfl) rfl (by simp)
  unfold Grammar.returning
  rw [yields_here_bind, yields_nextKind_bind]
  split
  · exact yields_pure hs (hnone _)
  · exact yields_pure hs (hnone _)
  · exact yields_pure hs (hnone _)
  · refine Yields.bind (hg.operand s hs) fun e s' hs' he => ?_
    rw [yields_spanFrom_bind]
    exact yields_pure hs' (Node.formed_stmt [Node.expr e] (fun _ => rfl) rfl
      (by simpa using he))

/-- A `try`, as a statement or as an expression. -/
def AttemptFormed (t : Attempt) : Prop :=
  Node.attemptIsWellFormed t = true ∧ (Node.block t.body).Formed ∧
    ∀ b ∈ t.handler, (Node.block b).Formed

theorem sound_catchParam :
    Parser.Sound catchParam fun param => param.all Name.isIdentifier = true := by
  intro s hs
  unfold catchParam
  rw [yields_nextIs_bind]
  split
  · refine yields_advance_bind hs fun hs' => ?_
    refine yields_expect_bind hs' fun hname hkind => ?_
    rw [yields_nameHere_bind]
    refine yields_expect_bind hname fun hs'' _ => ?_
    exact yields_pure hs'' (hname.nameHere hkind)
  · exact yields_pure hs rfl

/-- The handler and its parameter may be missing. -/
theorem Sound.attempt (hg : g.Sound) :
    Parser.Sound g.attempt AttemptFormed := by
  intro s hs
  rw [attempt_eq, yields_here_bind]
  refine Yields.bind (hg.nextBlock s hs) fun body s' hs' hbody => ?_
  rw [yields_nextIs_bind]
  split
  · refine yields_advance_bind hs' fun hs'' => ?_
    refine Yields.bind (sound_catchParam _ hs'') fun param s' hs' hparam => ?_
    refine Yields.bind (hg.nextBlock s' hs') fun handler s' hs' hhandler => ?_
    rw [yields_spanFrom_bind]
    refine yields_pure hs' ⟨?_, hbody, by simpa using hhandler⟩
    simp [Node.attemptIsWellFormed, hparam]
  · rw [yields_spanFrom_bind]
    exact yields_pure hs' ⟨rfl, hbody, by simp⟩

/-- What stands inside a `try` are its blocks. -/
theorem AttemptFormed.inside {t : Attempt} (h : AttemptFormed t) :
    ∀ n ∈ Node.block t.body :: t.handler.toList.map Node.block, n.Formed := by
  intro n hn
  rcases List.mem_cons.mp hn with rfl | hhandler
  · exact h.2.1
  · obtain ⟨b, hb, rfl⟩ := List.mem_map.mp hhandler
    exact h.2.2 b (Option.mem_toList.mp hb)

theorem AttemptFormed.stmt {t : Attempt} (h : AttemptFormed t) :
    (Node.stmt (.attempt t)).Formed :=
  Node.formed_stmt _ (fun _ => rfl) h.1 h.inside

theorem AttemptFormed.expr {t : Attempt} (h : AttemptFormed t) :
    (Node.expr (.attempt t)).Formed :=
  Node.formed_expr _ (fun _ => rfl) h.1 h.inside

end Grammar

/-! ### Declarations without anything inside -/

theorem sound_nextString : Sound nextString fun _ => True := by
  intro s hs
  unfold nextString
  refine yields_expect_bind hs fun hs' _ => ?_
  rw [yields_current_bind]
  exact yields_pure hs' trivial

/-- Modules may be grouped or not, but there is one at least. -/
theorem sound_inclusion : Sound inclusion fun st => (Node.stmt st).Formed := by
  intro s hs
  unfold inclusion
  rw [yields_here_bind, yields_nextIs_bind]
  split
  · refine yields_advance_bind hs fun hs' => ?_
    refine Yields.bind (sound_commaList sound_nextString _ hs')
      fun modules s' hs' hmodules => ?_
    refine yields_expect_bind hs' fun hs'' _ => ?_
    rw [yields_spanFrom_bind]
    refine yields_pure hs'' (Node.formed_of_leaf (fun _ => rfl) ?_)
    simp [Node.stmtIsWellFormed, hmodules.1]
  · refine Yields.bind (sound_nextString s hs) fun module s' hs' _ => ?_
    rw [yields_spanFrom_bind]
    exact yields_pure hs' (Node.formed_of_leaf (fun _ => rfl) rfl)

/-- What the loop over the fields preserves is that all of them are names. -/
theorem sound_structDeclaration :
    Sound structDeclaration fun st => (Node.stmt st).Formed := by
  intro s hs
  unfold structDeclaration
  rw [yields_here_bind]
  refine yields_expect_bind hs fun hname hkind => ?_
  rw [yields_nameHere_bind]
  refine yields_expect_bind hname fun hs' _ => ?_
  refine yields_advance_bind hs' fun hs'' => ?_
  refine Yields.bind (sound_repeated
    (I := fun fields => ∀ f ∈ fields, Name.isIdentifier f = true)
    (R := fun fields => ∀ f ∈ fields, Name.isIdentifier f = true)
    (by simp) (fun fields hfields s hs => ?_) _ hs'')
    fun fields s' hs' hfields => ?_
  · rw [yields_current_bind]
    split
    · exact yields_pure hs fun f hf => hfields f (List.mem_reverse.mp hf)
    · next hfield =>
      rw [yields_nameHere_bind]
      refine yields_advance_bind hs fun hs' => yields_pure hs' fun f hf => ?_
      rcases List.mem_cons.mp hf with rfl | hmem
      · exact hs.nameHere hfield
      · exact hfields f hmem
    · exact yields_advance_bind hs fun hs' => yields_pure hs' hfields
    · exact yields_advance_bind hs fun hs' => yields_pure hs' hfields
    · exact yields_unexpected hs
    · exact yields_unexpected hs
  · rw [yields_spanFrom_bind]
    refine yields_pure hs' (Node.formed_of_leaf (fun _ => rfl) ?_)
    exact Bool.and_eq_true_iff.mpr
      ⟨hname.nameHere hkind, List.all_eq_true.mpr hfields⟩

theorem sound_variant {s : State} (hs : s.Proper)
    (hkind : s.current.kind = .ident) :
    Yields variant s fun v _ => v.isWellFormed = true := by
  unfold variant
  rw [yields_nameHere_bind, yields_nextIs_bind]
  split
  · refine yields_advance_bind hs fun hs' => ?_
    refine yields_advance_bind hs' fun hs'' => ?_
    refine Yields.bind (sound_signedInteger _ hs'') fun n s' hs' hn => ?_
    refine yields_pure hs' ?_
    unfold VariantDecl.isWellFormed
    rw [hs.nameHere hkind]
    simpa using hn
  · refine yields_pure hs ?_
    unfold VariantDecl.isWellFormed
    rw [hs.nameHere hkind]
    rfl

theorem sound_enumDeclaration :
    Sound enumDeclaration fun st => (Node.stmt st).Formed := by
  intro s hs
  unfold enumDeclaration
  rw [yields_here_bind]
  refine yields_expect_bind hs fun hname hkind => ?_
  rw [yields_nameHere_bind]
  refine yields_expect_bind hname fun hs' _ => ?_
  refine yields_advance_bind hs' fun hs'' => ?_
  refine Yields.bind (sound_repeated
    (I := fun variants => ∀ v ∈ variants, VariantDecl.isWellFormed v = true)
    (R := fun variants => ∀ v ∈ variants, VariantDecl.isWellFormed v = true)
    (by simp) (fun variants hvariants s hs => ?_) _ hs'')
    fun variants s' hs' hvariants => ?_
  · rw [yields_current_bind]
    split
    · exact yields_pure hs fun v hv => hvariants v (List.mem_reverse.mp hv)
    · next hvariant =>
      refine Yields.bind (sound_variant hs hvariant) fun v s' hs' hv => ?_
      refine yields_advance_bind hs' fun hs'' => yields_pure hs'' ?_
      intro v' hv'
      rcases List.mem_cons.mp hv' with rfl | hmem
      · exact hv
      · exact hvariants v' hmem
    · exact yields_advance_bind hs fun hs' => yields_pure hs' hvariants
    · exact yields_unexpected hs
    · exact yields_unexpected hs
  · rw [yields_spanFrom_bind]
    refine yields_pure hs' (Node.formed_of_leaf (fun _ => rfl) ?_)
    exact Bool.and_eq_true_iff.mpr
      ⟨hname.nameHere hkind, List.all_eq_true.mpr hvariants⟩

end Parser

end Script
