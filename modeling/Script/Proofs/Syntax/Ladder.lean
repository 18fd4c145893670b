import Script.Proofs.Syntax.Expressions

/-!
# The ladder of precedences

A row of operands with an operator between each and the next can be read as a tree in
many ways.  Only one of them climbs the ladder: no operator has a looser one on its
left, nor one on its right that is as loose as itself.  `expression_climbs` says that
this tree is what the parser makes of the row.

The parser finds every tree that climbs (`Expr.Climbs.found`), by induction on the
tree: it comes to the loop over operators with the tree in its hands.  So two such trees
of one row are the same, and it is enough to build one.
-/

namespace Script

/-! ### Rows of tokens -/

namespace Token

/-- The tokens of an operand: a name or an integer, behind any `-` and `!`. -/
inductive Operand : List Token → Prop where
  | name {t : Token} (hkind : t.kind = .ident) : Operand [t]
  | int {t : Token} (hkind : t.kind = .int)
      (hrange : (Numeral.int64? t.text.toList).isSome) : Operand [t]
  | behind {t : Token} {tokens : List Token} (hkind : t.kind = .minus ∨ t.kind = .bang)
      (hoperand : Operand tokens) : Operand (t :: tokens)

/-- A binary operator or `..`. -/
def Kind.isJoint (kind : Kind) : Bool :=
  (Parser.binaryOp? kind).isSome || kind == .range

/-- Operands with an operator between each and the next. -/
inductive Row : List Token → Prop where
  | operand {tokens : List Token} (hoperand : Operand tokens) : Row tokens
  | more {tokens operand : List Token} {t : Token} (hrow : Row tokens)
      (hjoint : t.kind.isJoint = true) (hoperand : Operand operand) :
      Row (tokens ++ t :: operand)

end Token

open Token (Operand Row)

theorem Precedence.level_le_dot (p : Precedence) : p.level ≤ dot.level := by
  cases p <;> decide

theorem Parser.binaryOp?_eq_some {kind : Token.Kind} {op : BinaryOp} :
    binaryOp? kind = some op ↔ kind = op.kind := by
  constructor
  · intro h
    cases kind <;> cases op <;> first | rfl | cases h
  · rintro rfl
    cases op <;> rfl

theorem Token.Kind.isJoint_iff {kind : Token.Kind} :
    kind.isJoint = true ↔ (∃ op : BinaryOp, kind = op.kind) ∨ kind = .range := by
  unfold Token.Kind.isJoint
  rw [Bool.or_eq_true, Option.isSome_iff_exists, beq_iff_eq]
  simp only [Parser.binaryOp?_eq_some]

/-- Operators between operands bind less tightly than those in front of one. -/
theorem Token.Kind.level_of_isJoint {kind : Token.Kind} (h : kind.isJoint = true) :
    (Precedence.ofKind kind).level < Precedence.unary.level := by
  rcases Token.Kind.isJoint_iff.mp h with ⟨op, rfl⟩ | rfl
  · cases op <;> decide
  · decide

/-! ### Trees of a row -/

namespace Expr

/-- The tree of an operator between two operands. -/
inductive Joins (left right : Expr) : Token.Kind → Expr → Prop where
  | binary {op : BinaryOp} {loc : Location} :
      Joins left right op.kind (.binary left op right loc)
  | range {loc : Location} : Joins left right .range (.range left right loc)

/-- From left to right, the operands and operators of the tree are the tokens. -/
inductive InOrder : Expr → List Token → Prop where
  | name {t : Token} {id : Name} (hkind : t.kind = .ident) (htext : t.text = id.text) :
      InOrder (.name id) [t]
  | int {t : Token} {value : Int64} {loc : Location} (hkind : t.kind = .int)
      (hvalue : Numeral.int64? t.text.toList = some value) : InOrder (.int value loc) [t]
  | unary {t : Token} {tokens : List Token} {op : PrefixOp} {right : Expr}
      {loc : Location} (hkind : t.kind = op.kind) (hright : InOrder right tokens) :
      InOrder (.unary op right loc) (t :: tokens)
  | joint {t : Token} {before after : List Token} {left right e : Expr}
      (hjoins : Joins left right t.kind e) (hleft : InOrder left before)
      (hright : InOrder right after) : InOrder e (before ++ t :: after)

/-- The rung of the operator between two operands at the root of a tree.  What has no
such operator is an operand, and on the highest rung. -/
def rung : Expr → Precedence
  | .binary _ op _ _ => Precedence.ofKind op.kind
  | .range .. => .range
  | _ => .dot

/-- Every operator between two operands is at least as loose as what is on its left and
looser than what is on its right.  An operator in front of an operand binds nothing but
an operand. -/
inductive Climbs : Expr → Prop where
  | name {id : Name} : Climbs (.name id)
  | int {value : Int64} {loc : Location} : Climbs (.int value loc)
  | unary {op : PrefixOp} {right : Expr} {loc : Location} (hrung : right.rung = .dot)
      (hright : Climbs right) : Climbs (.unary op right loc)
  | joint {kind : Token.Kind} {left right e : Expr} (hjoins : Joins left right kind e)
      (habove : (Precedence.ofKind kind).level ≤ left.rung.level)
      (habove' : (Precedence.ofKind kind).level < right.rung.level)
      (hleft : Climbs left) (hright : Climbs right) : Climbs e

variable {e left right : Expr} {tokens operand : List Token} {t : Token}
  {kind : Token.Kind}

theorem Joins.rung_eq (h : Joins left right kind e) : e.rung = .ofKind kind := by
  cases h <;> rfl

theorem Joins.isJoint (h : Joins left right kind e) : kind.isJoint = true := by
  rw [Token.Kind.isJoint_iff]
  cases h with
  | binary => exact Or.inl ⟨_, rfl⟩
  | range => exact Or.inr rfl

theorem exists_joins (h : kind.isJoint = true) (left right : Expr) :
    ∃ e, Joins left right kind e := by
  rcases Token.Kind.isJoint_iff.mp h with ⟨op, rfl⟩ | rfl
  · exact ⟨.binary left op right default, .binary⟩
  · exact ⟨.range left right default, .range⟩

theorem Joins.unique {left' right' : Expr} {kind' : Token.Kind}
    (h : Joins left right kind e) (h' : Joins left' right' kind' e) :
    left' = left ∧ right' = right ∧ kind' = kind := by
  cases h <;> cases h' <;> exact ⟨rfl, rfl, rfl⟩

/-- The tokens of a tree of an operator between two operands. -/
theorem InOrder.of_joins (h : e.InOrder tokens) (hjoins : Joins left right kind e) :
    ∃ before t after, tokens = before ++ t :: after ∧ t.kind = kind ∧
      left.InOrder before ∧ right.InOrder after := by
  cases h with
  | name | int | unary => cases hjoins
  | joint hjoins' hleft hright =>
    obtain ⟨rfl, rfl, hkind⟩ := hjoins.unique hjoins'
    exact ⟨_, _, _, rfl, hkind, hleft, hright⟩

theorem Climbs.of_joins (h : e.Climbs) (hjoins : Joins left right kind e) :
    (Precedence.ofKind kind).level ≤ left.rung.level ∧
      (Precedence.ofKind kind).level < right.rung.level ∧ left.Climbs ∧
      right.Climbs := by
  cases h with
  | name | int | unary => cases hjoins
  | joint hjoins' hleftRung hrightRung hleft hright =>
    obtain ⟨rfl, rfl, rfl⟩ := hjoins.unique hjoins'
    exact ⟨hleftRung, hrightRung, hleft, hright⟩

theorem Climbs.of_unary {op : PrefixOp} {loc : Location}
    (h : (Expr.unary op right loc).Climbs) : right.rung = .dot ∧ right.Climbs := by
  cases h with
  | unary hrung hright => exact ⟨hrung, hright⟩
  | joint hjoins => cases hjoins

theorem InOrder.length_pos (h : e.InOrder tokens) : 0 < tokens.length := by
  cases h with
  | name | int | unary => exact Nat.succ_pos _
  | joint =>
    rw [List.length_append, List.length_cons]
    omega

/-! ### Up to locations -/

theorem rung_bare (e : Expr) : e.bare.rung = e.rung := by
  cases e <;> rfl

theorem rung_eq_of_bare {e' : Expr} (h : e'.bare = e.bare) : e'.rung = e.rung := by
  rw [← rung_bare e', h, rung_bare]

theorem bare_eq_name {e' : Expr} {id : Name} (h : e'.bare = (Expr.name id).bare) :
    ∃ id', e' = .name id' ∧ id'.text = id.text := by
  cases e' with
  | name id' =>
    injection h with hname
    have htext : id'.bare.text = id.bare.text := congrArg Name.text hname
    exact ⟨id', rfl, htext⟩
  | _ => cases h

theorem bare_eq_int {e' : Expr} {value : Int64} {loc : Location}
    (h : e'.bare = (Expr.int value loc).bare) : ∃ loc', e' = .int value loc' := by
  cases e' with
  | int value' loc' =>
    injection h with hvalue
    exact ⟨loc', by rw [hvalue]⟩
  | _ => cases h

theorem bare_eq_unary {e' : Expr} {op : PrefixOp} {loc : Location}
    (h : e'.bare = (Expr.unary op right loc).bare) :
    ∃ right' loc', e' = .unary op right' loc' ∧ right'.bare = right.bare := by
  cases e' with
  | unary op' right' loc' =>
    injection h with hop hright
    exact ⟨right', loc', by rw [hop], hright⟩
  | _ => cases h

theorem Joins.of_bare {e' : Expr} (hjoins : Joins left right kind e)
    (h : e'.bare = e.bare) :
    ∃ left' right', Joins left' right' kind e' ∧ left'.bare = left.bare ∧
      right'.bare = right.bare := by
  cases hjoins with
  | binary =>
    cases e' with
    | binary left' op right' loc' =>
      injection h with hleft hop hright
      subst hop
      exact ⟨left', right', .binary, hleft, hright⟩
    | _ => cases h
  | range =>
    cases e' with
    | range left' right' loc' =>
      injection h with hleft hright
      exact ⟨left', right', .range, hleft, hright⟩
    | _ => cases h

theorem InOrder.of_bare (horder : e.InOrder tokens) {e' : Expr}
    (h : e'.bare = e.bare) : e'.InOrder tokens := by
  induction horder generalizing e' with
  | name hkind htext =>
    obtain ⟨id', rfl, htext'⟩ := bare_eq_name h
    exact .name hkind (htext.trans htext'.symm)
  | int hkind hvalue =>
    obtain ⟨loc', rfl⟩ := bare_eq_int h
    exact .int hkind hvalue
  | unary hkind _ ih =>
    obtain ⟨right', loc', rfl, hright⟩ := bare_eq_unary h
    exact .unary hkind (ih hright)
  | joint hjoins _ _ ihleft ihright =>
    obtain ⟨left', right', hjoins', hleft, hright⟩ := hjoins.of_bare h
    exact .joint hjoins' (ihleft hleft) (ihright hright)

theorem Climbs.of_bare (hclimbs : e.Climbs) {e' : Expr} (h : e'.bare = e.bare) :
    e'.Climbs := by
  induction hclimbs generalizing e' with
  | name =>
    obtain ⟨id', rfl, -⟩ := bare_eq_name h
    exact .name
  | int =>
    obtain ⟨loc', rfl⟩ := bare_eq_int h
    exact .int
  | unary hrung _ ih =>
    obtain ⟨right', loc', rfl, hright⟩ := bare_eq_unary h
    exact .unary ((rung_eq_of_bare hright).trans hrung) (ih hright)
  | joint hjoins hleftRung hrightRung _ _ ihleft ihright =>
    obtain ⟨left', right', hjoins', hleft, hright⟩ := hjoins.of_bare h
    exact .joint hjoins' (by rwa [rung_eq_of_bare hleft])
      (by rwa [rung_eq_of_bare hright]) (ihleft hleft) (ihright hright)

/-! ### One tree that climbs -/

/-- A tree of an operand. -/
structure IsOperand (e : Expr) (tokens : List Token) : Prop where
  inOrder : e.InOrder tokens
  climbs : e.Climbs
  rung : e.rung = .dot

theorem exists_isOperand (h : Operand tokens) : ∃ e : Expr, e.IsOperand tokens := by
  induction h with
  | @name t hkind => exact ⟨.name ⟨t.text, default⟩, .name hkind rfl, .name, rfl⟩
  | int hkind hrange =>
    obtain ⟨value, hvalue⟩ := Option.isSome_iff_exists.mp hrange
    exact ⟨.int value default, .int hkind hvalue, .int, rfl⟩
  | behind hkind _ ih =>
    obtain ⟨right, hright⟩ := ih
    rcases hkind with hkind | hkind
    · exact ⟨.unary .minus right default, .unary hkind hright.inOrder,
        .unary hright.rung hright.climbs, rfl⟩
    · exact ⟨.unary .not right default, .unary hkind hright.inOrder,
        .unary hright.rung hright.climbs, rfl⟩

/-- One more operator and operand go above a tree in which nothing is looser. -/
theorem exists_above (hlast : right.IsOperand operand) (hjoint : t.kind.isJoint = true)
    (horder : e.InOrder tokens) (hclimbs : e.Climbs)
    (habove : (Precedence.ofKind t.kind).level ≤ e.rung.level) :
    ∃ e' : Expr, e'.InOrder (tokens ++ t :: operand) ∧ e'.Climbs ∧
      (e'.rung = e.rung ∨ e'.rung = .ofKind t.kind) := by
  obtain ⟨e', hjoins⟩ := exists_joins hjoint e right
  have habove' : (Precedence.ofKind t.kind).level < right.rung.level := by
    rw [hlast.rung]
    exact Nat.lt_trans (Token.Kind.level_of_isJoint hjoint) (by decide)
  exact ⟨e', .joint hjoins horder hlast.inOrder,
    .joint hjoins habove habove' hclimbs hlast.climbs, Or.inr hjoins.rung_eq⟩

/-- They go into a tree on its right side, below the operators that are looser. -/
theorem exists_more {last : Expr} (hlast : last.IsOperand operand)
    (hjoint : t.kind.isJoint = true) (horder : e.InOrder tokens) (hclimbs : e.Climbs) :
    ∃ e' : Expr, e'.InOrder (tokens ++ t :: operand) ∧ e'.Climbs ∧
      (e'.rung = e.rung ∨ e'.rung = .ofKind t.kind) := by
  induction hclimbs generalizing tokens with
  | name => exact exists_above hlast hjoint horder .name (Precedence.level_le_dot _)
  | int => exact exists_above hlast hjoint horder .int (Precedence.level_le_dot _)
  | unary hrung hright =>
    exact exists_above hlast hjoint horder (.unary hrung hright)
      (Precedence.level_le_dot _)
  | @joint kind left right e hjoins hleftRung hrightRung hleft hright _ ih =>
    by_cases hle : (Precedence.ofKind t.kind).level ≤ e.rung.level
    · exact exists_above hlast hjoint horder
        (.joint hjoins hleftRung hrightRung hleft hright) hle
    · obtain ⟨before, t', after, rfl, rfl, horderLeft, horderRight⟩ :=
        horder.of_joins hjoins
      obtain ⟨right', horder', hclimbs', hrung'⟩ := ih horderRight
      obtain ⟨e', hjoins'⟩ := exists_joins hjoins.isJoint left right'
      rw [hjoins.rung_eq] at hle
      have hrightRung' : (Precedence.ofKind t'.kind).level < right'.rung.level := by
        rcases hrung' with hrung' | hrung'
        · rw [hrung']
          exact hrightRung
        · rw [hrung']
          exact Nat.lt_of_not_le hle
      refine ⟨e', ?_, .joint hjoins' hleftRung hrightRung' hleft hclimbs', Or.inl ?_⟩
      · rw [List.append_assoc, List.cons_append]
        exact .joint hjoins' horderLeft horder'
      · rw [hjoins'.rung_eq, hjoins.rung_eq]

theorem exists_climbs (h : Row tokens) : ∃ e : Expr, e.InOrder tokens ∧ e.Climbs := by
  induction h with
  | operand hoperand =>
    obtain ⟨e, he⟩ := exists_isOperand hoperand
    exact ⟨e, he.inOrder, he.climbs⟩
  | more _ hjoint hoperand ih =>
    obtain ⟨e, horder, hclimbs⟩ := ih
    obtain ⟨last, hlast⟩ := exists_isOperand hoperand
    obtain ⟨e', horder', hclimbs', -⟩ := exists_more hlast hjoint horder hclimbs
    exact ⟨e', horder', hclimbs'⟩

end Expr

/-! ### The parser comes to it -/

namespace Parser

/-- The state in front of these tokens, of which the first is the current one. -/
def State.upon (s : State) (tokens : List Token) : State :=
  { s with
    current := tokens.headD s.current
    next := tokens.tail.headD s.next
    rest := tokens.drop 2 }

theorem State.upon_self (s : State) : s.upon (s.current :: s.next :: s.rest) = s := rfl

theorem State.upon_advanced {s : State} {t : Token} {tokens : List Token}
    (h : 2 ≤ tokens.length) : (s.upon (t :: tokens)).advanced = s.upon tokens := by
  match tokens, h with
  | t' :: t'' :: r, _ => rfl

theorem State.length_upon_ahead {s : State} {tokens : List Token}
    (h : 2 ≤ tokens.length) : (s.upon tokens).ahead.length + 1 = tokens.length := by
  match tokens, h with
  | t :: t' :: r, _ => simp [State.ahead, State.upon]

variable {n : Nat} {precedence : Precedence} {e whole : Expr} {s s' s'' : State}

/-- From `s` the parser comes to the loop over operators with the tree, in `s'`. -/
def Arrives (n : Nat) (precedence : Precedence) (s : State) (e : Expr) (s' : State) :
    Prop :=
  ∃ fuel e', s'.ahead.length ≤ fuel.length ∧ e'.bare = e.bare ∧
    (grammar n).expressionHere precedence s =
      iterate ((grammar n).operatorPass precedence) fuel e' s'

/-- The parser succeeds with the tree, in `s'`. -/
def Makes (p : Parser Expr) (s : State) (e : Expr) (s' : State) : Prop :=
  Runs p s fun e' s'' => e'.bare = e.bare ∧ s'' = s'

theorem arrives_of_operandHere (h : Makes (grammar n).operandHere s e s') :
    Arrives n precedence s e s' := by
  obtain ⟨e', t, hrun, hbare, heq⟩ := h
  subst t
  refine ⟨s'.current :: s'.current :: s'.next :: s'.rest, e', ?_, hbare, ?_⟩
  · simp [State.ahead]
  · rw [Grammar.expressionHere_eq, bind_ok hrun]
    rfl

/-- The loop ends in front of a token that does not bind. -/
theorem Arrives.stops (h : Arrives n precedence s e s')
    (hlevel : (Precedence.ofKind s'.next.kind).level ≤ precedence.level) :
    Makes ((grammar n).expressionHere precedence) s e s' := by
  obtain ⟨fuel, e', hfuel, hbare, heq⟩ := h
  have hdone : Makes (iterate ((grammar n).operatorPass precedence) fuel e') s' e s' := by
    refine runs_iterate_done hfuel ?_
    unfold Grammar.operatorPass
    rw [runs_nextKind_bind, if_neg (by omega), runs_pure_iff]
    exact ⟨e', rfl, hbare, rfl⟩
  obtain ⟨e'', s'', hrun, hmade⟩ := hdone
  exact ⟨e'', s'', heq.trans hrun, hmade⟩

/-- The loop takes an operator that binds. -/
theorem Arrives.takes (h : Arrives n precedence s e s')
    (hkind : s'.next.kind ≠ .semicolon)
    (hlevel : precedence.level < (Precedence.ofKind s'.next.kind).level)
    (hoperator : ∀ e', e'.bare = e.bare →
      Makes ((grammar n).operatorHere e') s'.advanced whole s'')
    (hlength : s''.ahead.length < s'.ahead.length) :
    Arrives n precedence s whole s'' := by
  obtain ⟨fuel, e', hfuel, hbare, heq⟩ := h
  have hpass : Runs ((grammar n).operatorPass precedence e') s' fun pass t =>
      ∃ e'', pass = .again e'' ∧ t.ahead.length < s'.ahead.length ∧
        (e''.bare = whole.bare ∧ t = s'') := by
    unfold Grammar.operatorPass
    rw [runs_nextKind_bind, if_pos ⟨hkind, hlevel⟩, runs_advance_bind]
    refine Runs.bind (hoperator e' hbare) ?_
    rintro e'' t ⟨hbare', rfl⟩
    rw [runs_pure_iff]
    exact ⟨e'', rfl, hlength, hbare', rfl⟩
  obtain ⟨fuel', e'', t, hfuel', ⟨hbare', rfl⟩, heq'⟩ := iterate_again hfuel hpass
  exact ⟨fuel', e'', hfuel', hbare', heq.trans heq'⟩

/-- At an operator between two operands the parser makes the tree of both, if it makes
the right one of what is behind. -/
theorem makes_operatorHere {g : Grammar} {left left' right : Expr} {kind : Token.Kind}
    (hjoins : Expr.Joins left right kind whole) (hkind : s.current.kind = kind)
    (hleft : left'.bare = left.bare)
    (hright : Makes (g.expression (.ofKind kind)) s.advanced right s') :
    Makes (g.operatorHere left') s whole s' := by
  unfold Makes
  cases hjoins with
  | binary =>
    rw [Grammar.runs_operatorHere_binary hkind]
    unfold Grammar.binaryHere
    rw [runs_current_bind, runs_advance_bind, hkind]
    refine Runs.bind hright ?_
    rintro right' s'' ⟨hright', rfl⟩
    rw [runs_pure_iff]
    exact ⟨by simp [Expr.bare, hleft, hright'], rfl⟩
  | range =>
    unfold Grammar.operatorHere
    rw [runs_current_bind, hkind]
    change Runs (g.rangeHere left') s _
    unfold Grammar.rangeHere
    rw [runs_advance_bind]
    refine Runs.bind hright ?_
    rintro right' s'' ⟨hright', rfl⟩
    rw [runs_pure_iff]
    exact ⟨by simp [Expr.bare, hleft, hright'], rfl⟩

/-- At an operator in front of its operand the parser makes the tree, if it makes the
operand of what is behind. -/
theorem makes_operandHere_unary {g : Grammar} {op : PrefixOp} {right : Expr}
    {loc : Location} (hkind : s.current.kind = op.kind)
    (hright : Makes (g.expression .unary) s.advanced right s') :
    Makes g.operandHere s (.unary op right loc) s' := by
  have hunary : Makes g.unaryHere s (.unary op right loc) s' := by
    unfold Grammar.unaryHere Makes
    rw [runs_here_bind, runs_current_bind, runs_advance_bind, hkind]
    refine Runs.bind hright ?_
    rintro right' s'' ⟨hright', rfl⟩
    rw [runs_pure_iff]
    refine ⟨?_, rfl⟩
    cases op <;> simp [Expr.bare, hright', PrefixOp.kind, prefixOp]
  unfold Grammar.operandHere Makes
  rw [runs_current_bind, runs_here_bind, hkind]
  cases op <;> exact hunary

theorem makes_operandHere_name {g : Grammar} {id : Name}
    (hkind : s.current.kind = .ident) (htext : s.current.text = id.text)
    (hnext : s.next.kind ≠ .lbrace) : Makes g.operandHere s (.name id) s := by
  unfold Grammar.operandHere Makes
  rw [runs_current_bind, runs_here_bind, hkind]
  change Runs g.nameOrRecord s _
  unfold Grammar.nameOrRecord
  rw [runs_nameHere_bind, runs_nextIs_bind, runs_insideCase_bind,
    if_pos (by simp [hnext]), runs_pure_iff]
  exact ⟨by rw [Expr.bare, Expr.bare, Name.bare_mk htext], rfl⟩

theorem makes_operandHere_int {g : Grammar} {value : Int64} {loc : Location}
    (hkind : s.current.kind = .int)
    (hvalue : Numeral.int64? s.current.text.toList = some value) :
    Makes g.operandHere s (.int value loc) s := by
  unfold Grammar.operandHere Makes
  rw [runs_current_bind, runs_here_bind, hkind]
  have hinteger : Runs integerHere s fun value' s' => value' = value ∧ s' = s := by
    unfold integerHere
    rw [runs_current_bind, hvalue, runs_pure_iff]
    exact ⟨rfl, rfl⟩
  refine Runs.bind hinteger ?_
  rintro value' s' ⟨rfl, rfl⟩
  rw [runs_pure_iff]
  exact ⟨by simp [Expr.bare], rfl⟩

end Parser

open Script.Parser

variable {e left right : Expr} {tokens : List Token}

/-- The parser comes from the tokens of the tree to the loop over operators with the
tree, in front of a token `x` that may be there. -/
def Expr.Found (e : Expr) (tokens : List Token) : Prop :=
  ∀ (s : State) (precedence : Precedence) (x : Token) (rest : List Token) {n : Nat},
    tokens.length ≤ n + 1 → precedence.level < e.rung.level →
    x.kind.endsOperand = true → (Precedence.ofKind x.kind).level ≤ e.rung.level →
    ∃ last, tokens.getLast? = some last ∧
      Arrives n precedence (s.upon (tokens ++ x :: rest)) e (s.upon (last :: x :: rest))

/-- What is found is made, if what follows does not bind. -/
theorem Expr.Found.makes (h : e.Found tokens) (s : State) (precedence : Precedence)
    (x : Token) (rest : List Token) {n : Nat} (hn : tokens.length ≤ n)
    (hpos : 0 < tokens.length) (hprecedence : precedence.level < e.rung.level)
    (hx : x.kind.endsOperand = true)
    (hlevel : (Precedence.ofKind x.kind).level ≤ precedence.level) :
    ∃ last, tokens.getLast? = some last ∧
      Makes ((grammar n).expression precedence) (s.upon (tokens ++ x :: rest)) e
        (s.upon (last :: x :: rest)) := by
  obtain ⟨n, rfl⟩ := Nat.exists_eq_add_one_of_ne_zero (n := n) (by omega)
  obtain ⟨last, hlast, harrives⟩ := h s precedence x rest hn hprecedence hx
    (Nat.le_of_lt (Nat.lt_of_le_of_lt hlevel hprecedence))
  exact ⟨last, hlast, harrives.stops hlevel⟩

theorem Token.Kind.ne_semicolon_of_isJoint {kind : Token.Kind}
    (h : kind.isJoint = true) : kind ≠ .semicolon := by
  rintro rfl
  cases h

theorem Token.Kind.level_of_endsOperand {kind : Token.Kind}
    (h : kind.endsOperand = true) :
    (Precedence.ofKind kind).level ≤ Precedence.unary.level := by
  cases kind <;> first | decide | cases h

theorem Token.Kind.endsOperand_of_isJoint {kind : Token.Kind} (h : kind.isJoint = true) :
    kind.endsOperand = true := by
  rcases Token.Kind.isJoint_iff.mp h with ⟨op, rfl⟩ | rfl
  · cases op <;> rfl
  · rfl

theorem Expr.level_rung_pos (e : Expr) : Precedence.lowest.level < e.rung.level := by
  cases e with
  | binary _ op _ _ => exact op.level_kind.1
  | _ => exact Nat.succ_pos _

theorem Expr.InOrder.found (horder : e.InOrder tokens) (hclimbs : e.Climbs) :
    e.Found tokens := by
  induction horder with
  | @name t id hkind htext =>
    intro s precedence x rest n _ _ hx _
    refine ⟨t, rfl, arrives_of_operandHere (makes_operandHere_name hkind htext ?_)⟩
    rintro hbrace
    change x.kind = .lbrace at hbrace
    rw [hbrace] at hx
    cases hx
  | @int t value loc hkind hvalue =>
    intro s precedence x rest n _ _ hx _
    exact ⟨t, rfl, arrives_of_operandHere (makes_operandHere_int hkind hvalue)⟩
  | @unary t tokens op right loc hkind hright ih =>
    intro s precedence x rest n hn _ hx _
    obtain ⟨hrung, hclimbs'⟩ := hclimbs.of_unary
    have hpos := hright.length_pos
    obtain ⟨last, hlast, hmakes⟩ := Expr.Found.makes (ih hclimbs') s .unary x rest
      (Nat.le_of_succ_le_succ hn) hpos (by rw [hrung]; decide) hx
      (Token.Kind.level_of_endsOperand hx)
    refine ⟨last, ?_, arrives_of_operandHere (makes_operandHere_unary hkind ?_)⟩
    · rw [List.getLast?_cons, hlast]
      rfl
    · rw [List.cons_append, State.upon_advanced (by simp; omega)]
      exact hmakes
  | @joint t before after left right e hjoins hleft hright ihleft ihright =>
    intro s precedence x rest n hn hprecedence hx hlevel
    obtain ⟨hleftRung, hrightRung, hclimbsLeft, hclimbsRight⟩ := hclimbs.of_joins hjoins
    have hpos := hright.length_pos
    rw [List.length_append, List.length_cons] at hn
    rw [hjoins.rung_eq] at hprecedence hlevel
    obtain ⟨lastLeft, -, harrives⟩ := ihleft hclimbsLeft s precedence t
      (after ++ x :: rest) (n := n) (by omega)
      (Nat.lt_of_lt_of_le hprecedence hleftRung)
      (Token.Kind.endsOperand_of_isJoint hjoins.isJoint) hleftRung
    obtain ⟨last, hlast, hmakes⟩ := Expr.Found.makes (ihright hclimbsRight) s
      (.ofKind t.kind) x rest (n := n) (by omega) hpos hrightRung hx hlevel
    have hbehind : (s.upon (t :: (after ++ x :: rest))).advanced =
        s.upon (after ++ x :: rest) := State.upon_advanced (by simp; omega)
    have hahead : (s.upon (lastLeft :: t :: (after ++ x :: rest))).advanced =
        s.upon (t :: (after ++ x :: rest)) := State.upon_advanced (by simp; omega)
    refine ⟨last, ?_, ?_⟩
    · rw [List.getLast?_append, List.getLast?_cons, hlast]
      rfl
    · rw [List.append_assoc, List.cons_append]
      refine harrives.takes (Token.Kind.ne_semicolon_of_isJoint hjoins.isJoint)
        hprecedence (fun left' hleft' => ?_) ?_
      · rw [hahead]
        refine makes_operatorHere hjoins rfl hleft' ?_
        rw [hbehind]
        exact hmakes
      · have hbefore : (s.upon (lastLeft :: t :: (after ++ x :: rest))).ahead.length + 1 =
            (lastLeft :: t :: (after ++ x :: rest)).length :=
          State.length_upon_ahead (by simp)
        have hafter : (s.upon (last :: x :: rest)).ahead.length + 1 =
            (last :: x :: rest).length := State.length_upon_ahead (by simp)
        simp only [List.length_append, List.length_cons] at hbefore hafter
        omega

/-- Of a row in front of a semicolon or of the end of input the parser makes a tree
that has the tokens of the row in order and climbs the ladder, and it stops at the last
token of the row.  Up to locations there is no other such tree. -/
theorem expression_climbs {tokens : List Token} (hrow : Row tokens) {stop : Token}
    (hstop : stop.kind = .semicolon ∨ stop.kind = .eof) {rest : List Token} {s : State}
    (hs : s.current :: s.next :: s.rest = tokens ++ stop :: rest) {n : Nat}
    (hn : tokens.length ≤ n) :
    ∃ e last, tokens.getLast? = some last ∧
      (grammar n).expression .lowest s =
        .ok e { s with current := last, next := stop, rest } ∧
      e.InOrder tokens ∧ e.Climbs ∧
      ∀ e' : Expr, e'.InOrder tokens → e'.Climbs → e'.bare = e.bare := by
  have hends : stop.kind.endsOperand = true := by
    rcases hstop with hstop | hstop <;> rw [hstop] <;> rfl
  have hlevel : (Precedence.ofKind stop.kind).level ≤ Precedence.lowest.level := by
    rcases hstop with hstop | hstop <;> rw [hstop] <;> exact Nat.le_refl 0
  have hmakes : ∀ e : Expr, e.InOrder tokens → e.Climbs →
      ∃ last, tokens.getLast? = some last ∧
        Makes ((grammar n).expression .lowest) s e (s.upon (last :: stop :: rest)) := by
    intro e horder hclimbs
    rw [← State.upon_self s, hs]
    exact Expr.Found.makes (horder.found hclimbs) s .lowest stop rest hn horder.length_pos e.level_rung_pos
      hends hlevel
  obtain ⟨e, horder, hclimbs⟩ := Expr.exists_climbs hrow
  obtain ⟨last, hlast, e₁, s₁, hrun, hbare, rfl⟩ := hmakes e horder hclimbs
  refine ⟨e₁, last, hlast, hrun, horder.of_bare hbare, hclimbs.of_bare hbare, ?_⟩
  intro e' horder' hclimbs'
  obtain ⟨_, _, e₂, s₂, hrun', hbare', -⟩ := hmakes e' horder' hclimbs'
  have hsame : Outcome.ok e₁ _ = Outcome.ok e₂ s₂ := hrun.symm.trans hrun'
  injection hsame with hsame
  rw [hsame, hbare']

/-- A token somewhere. -/
def tokenOf (kind : Token.Kind) (text : String) : Token := ⟨kind, text, 1, 1, 1⟩

/-- The tokens of `a - !b * 2 .. c`. -/
def mixedRow : List Token :=
  [tokenOf .ident "a", tokenOf .minus "-", tokenOf .bang "!", tokenOf .ident "b",
    tokenOf .asterisk "*", tokenOf .int "2", tokenOf .range "..", tokenOf .ident "c"]

/-- `!b * 2` -/
def mixedProduct : Expr :=
  .binary (.unary .not (.name ⟨"b", default⟩) default) .mul (.int 2 default) default

/-- `a - !b * 2` -/
def mixedDifference : Expr :=
  .binary (.name ⟨"a", default⟩) .sub mixedProduct default

theorem row_mixedRow : Row mixedRow := by
  have hfirst : Row [tokenOf .ident "a"] := .operand (.name rfl)
  have hfactor : Row (_ ++ tokenOf .minus "-" :: [tokenOf .bang "!", tokenOf .ident "b"]) :=
    .more hfirst rfl (.behind (Or.inr rfl) (.name rfl))
  have hnumber : Row (_ ++ tokenOf .asterisk "*" :: [tokenOf .int "2"]) :=
    .more hfactor rfl (.int rfl (by decide))
  exact .more hnumber (t := tokenOf .range "..") rfl (.name rfl)

theorem inOrder_mixedRow :
    (Expr.range mixedDifference (.name ⟨"c", default⟩) default).InOrder mixedRow := by
  have hname (text : String) :
      (Expr.name ⟨text, default⟩).InOrder [tokenOf .ident text] := .name rfl rfl
  have hfactor : (Expr.unary .not (.name ⟨"b", default⟩) default).InOrder
      [tokenOf .bang "!", tokenOf .ident "b"] := .unary rfl (hname "b")
  have hnumber : (Expr.int 2 default).InOrder [tokenOf .int "2"] :=
    .int rfl (by decide)
  have hmul : Expr.Joins _ _ BinaryOp.mul.kind mixedProduct := .binary
  have hsub : Expr.Joins _ _ BinaryOp.sub.kind mixedDifference := .binary
  have hproduct : mixedProduct.InOrder (_ ++ tokenOf .asterisk "*" :: _) :=
    .joint hmul hfactor hnumber
  have hdifference : mixedDifference.InOrder (_ ++ tokenOf .minus "-" :: _) :=
    .joint hsub (hname "a") hproduct
  exact .joint (t := tokenOf .range "..") .range hdifference (hname "c")

theorem climbs_mixedRow :
    (Expr.range mixedDifference (.name ⟨"c", default⟩) default).Climbs :=
  .joint .range (by decide) (by decide)
    (.joint .binary (by decide) (by decide) .name
      (.joint .binary (by decide) (by decide) (.unary rfl .name) .int)) .name

/-- `a - !b * 2 .. c;` is read as `(a - ((!b) * 2)) .. c`. -/
theorem expression_climbs_mixedRow :
    let s : State := State.upon (State.initial "" "" [])
      (mixedRow ++ [tokenOf .semicolon ";"])
    Row mixedRow ∧ ∃ e s', (grammar 8).expression .lowest s = .ok e s' ∧
      s'.current = tokenOf .ident "c" ∧
      e.bare = (Expr.range mixedDifference (.name ⟨"c", default⟩) default).bare := by
  intro s
  have hs : s.current :: s.next :: s.rest = mixedRow ++ tokenOf .semicolon ";" :: [] := rfl
  obtain ⟨e, last, hlast, hrun, -, -, hunique⟩ :=
    expression_climbs row_mixedRow (Or.inl rfl) hs (n := 8) (by decide)
  exact ⟨row_mixedRow, e, _, hrun, (Option.some.inj hlast).symm,
    (hunique _ inOrder_mixedRow climbs_mixedRow).symm⟩

end Script
