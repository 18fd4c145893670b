import Script.Proofs.Syntax.Faults
import Script.Proofs.Syntax.Spans

/-!
# Problems are reported in source order

Every production finds its problems in order, and an operand frames what was found in it:
it starts in front of all of that and ends behind.  So the report of an arrow behind an
operand is the only one that may start in front of an earlier one, and then the earlier
one stands in the operand.
-/

namespace Script

namespace Parser

variable {α β σ : Type} {file : String} {all : List Token} {g : Grammar} {s s' first : State}
  {faults faults' : List Fault} {left : Expr} {start loc : Location}

/-! ### Frames -/

/-- A region that was read between two states starts in front of what was found there and
ends behind it. -/
structure State.Frames (s : State) (loc : Location) (faults : List Fault) (s' : State) :
    Prop where
  starts : s.current.start ≤ loc.start
  reached : loc.start ≤ s'.current.start
  nonempty : loc.start < loc.stop
  front : ∀ f ∈ faults, loc.start ≤ f.loc.start
  behind : ∀ f ∈ faults, f.loc.start < loc.stop

/-- A region behind a state ends behind what was found there. -/
structure State.Ends (s : State) (last : Location) (faults : List Fault) : Prop where
  starts : s.current.start ≤ last.start
  nonempty : last.start < last.stop
  behind : ∀ f ∈ faults, f.loc.start < last.stop

/-- A region goes from a start up to one that ends behind what was found. -/
def State.Closes (s : State) (start loc : Location) (faults : List Fault) : Prop :=
  ∃ last, loc = start.through last ∧ s.Ends last faults

/-- The results of a parser frame what is found in them. -/
def Framed (p : Parser α) (loc : α → Location) : Prop :=
  ∀ ⦃file : String⦄ ⦃all : List Token⦄ ⦃s : State⦄, s.Over file all →
    Orders p s fun a faults s' => s.Frames (loc a) faults s'

/-- The same of results that start with the token at which the parser starts. -/
def Spanning (p : Parser α) (loc : α → Location) : Prop :=
  ∀ ⦃file : String⦄ ⦃all : List Token⦄ ⦃s : State⦄, s.Over file all →
    Orders p s fun a faults _ => s.Closes (locationOf s s.current) (loc a) faults

/-- The current token, in which nothing is found. -/
theorem State.Over.frames (hs : s.Over file all) :
    s.Frames (locationOf s s.current) [] s :=
  ⟨le_refl _, le_refl _, hs.current.nonempty, by simp, by simp⟩

theorem State.Over.ends (hs : s.Over file all) : s.Ends (locationOf s s.current) [] :=
  ⟨le_refl _, hs.current.nonempty, by simp⟩

theorem State.Frames.ends (h : s.Frames loc faults s') : s.Ends loc faults :=
  ⟨h.starts, h.nonempty, h.behind⟩

/-- A step behind the region. -/
theorem State.Frames.step (h : s.Frames loc faults s') (hs' : s'.Over file all) :
    s.Frames loc faults s'.advanced := by
  refine ⟨h.starts, h.reached.trans ?_, h.nonempty, h.front, h.behind⟩
  rw [s'.advanced_current]
  exact hs'.before_next.start

/-- A step in front of the region. -/
theorem State.Frames.of_step (h : s.advanced.Frames loc faults s') (hs : s.Over file all) :
    s.Frames loc faults s' := by
  refine ⟨le_trans ?_ h.starts, h.reached, h.nonempty, h.front, h.behind⟩
  rw [s.advanced_current]
  exact hs.before_next.start

/-- What was found before stands in front of the region. -/
theorem State.Ends.after (h : s.Meets faults s' s'.current.start) (hs : s.Over file all)
    (hends : s'.Ends loc faults') : s.Ends loc (faults ++ faults') := by
  have hstart := (State.Over.before_forward h.forward hs).1
  refine ⟨hstart.trans hends.starts, hends.nonempty, fun f hf => ?_⟩
  rcases List.mem_append.mp hf with hf | hf
  · exact (h.behind f hf).trans_lt (hends.starts.trans_lt hends.nonempty)
  · exact hends.behind f hf

/-- A region that starts with a frame and goes on behind it is a frame again. -/
theorem State.Frames.extend (hframes : first.Frames start faults s)
    (hmeets : s.Meets faults' s' s'.current.start) (hs : s.Over file all)
    (hcloses : s.Closes start loc faults') : first.Frames loc (faults ++ faults') s' := by
  obtain ⟨last, rfl, hends⟩ := hcloses
  have hreached := hframes.reached
  refine ⟨?_, ?_, ?_, fun f hf => ?_, fun f hf => ?_⟩
  · rw [Location.start_through]
    exact hframes.starts
  · rw [Location.start_through]
    exact hreached.trans (State.Over.before_forward hmeets.forward hs).1
  · rw [Location.start_through, Location.stop_through]
    exact hframes.nonempty.trans_le (le_max_left _ _)
  · rw [Location.start_through]
    rcases List.mem_append.mp hf with hf | hf
    · exact hframes.front f hf
    · exact hreached.trans (hmeets.ahead f hf)
  · rw [Location.stop_through]
    rcases List.mem_append.mp hf with hf | hf
    · exact (hframes.behind f hf).trans_le (le_max_left _ _)
    · exact (hends.behind f hf).trans_le (le_max_right _ _)

/-- The result of a parser that goes on behind a frame. -/
theorem Orders.extend {p : Parser α} {loc : α → Location} (hfirst : first.Over file all)
    (h : first.Meets faults s s.current.start) (hframes : first.Frames start faults s)
    (hp : Orders p s fun a faults' _ => s.Closes start (loc a) faults') :
    OrdersSince first p s fun a faults s' => first.Frames (loc a) faults s' :=
  Outcome.Ordered.after hfirst h hp fun _ _ _ _ hmeets hcloses =>
    hframes.extend hmeets (h.stillOver hfirst) hcloses

/-- The same behind a frame in which nothing was found. -/
theorem Orders.frames {p : Parser α} {loc : α → Location} (hs' : s'.Over file all)
    (hframes : s.Frames start [] s')
    (hp : Orders p s' fun a faults _ => s'.Closes start (loc a) faults) :
    Orders p s' fun a faults s'' => s.Frames (loc a) faults s'' :=
  hp.mono hs' fun _ _ _ _ hmeets hcloses => hframes.extend hmeets hs' hcloses

section

variable {p : Parser α} {f : α → Parser β} {locOf : α → Location} {endOf : β → Location}

theorem Framed.steady (h : Framed p locOf) : Steady p := fun _ _ _ hs => (h hs).weaken hs

theorem Spanning.steady (h : Spanning p locOf) : Steady p :=
  fun _ _ _ hs => (h hs).weaken hs

theorem Spanning.framed (h : Spanning p locOf) : Framed p locOf :=
  fun _ _ _ hs => (h hs).frames hs hs.frames

/-- A steady parser in front of the one that closes the region. -/
theorem Steady.closes (hp : Steady p) (hs : s.Over file all)
    (hf : ∀ a s', s'.Over file all →
      Orders (f a) s' fun b faults _ => s'.Closes start (endOf b) faults) :
    Orders (p >>= f) s fun b faults _ => s.Closes start (endOf b) faults := by
  refine (hp hs).bind hs fun a faults s' hs' hmeets _ => (hf a s' hs').mono hs' ?_
  rintro b faults' s'' - - ⟨last, hloc, hends⟩
  exact ⟨last, hloc, .after hmeets hs hends⟩

/-- The region is closed with the current token. -/
theorem closes_spanFrom {k : Location → β} (hs : s.Over file all)
    (hk : ∀ loc, endOf (k loc) = loc) :
    Orders (spanFrom start >>= fun loc => Pure.pure (k loc)) s
      fun b faults _ => s.Closes start (endOf b) faults := by
  rw [orders_spanFrom_bind]
  exact orders_pure ⟨_, hk _, hs.ends⟩

/-- The region is closed with the region of a part. -/
theorem Framed.closes {k : α → β} (hp : Framed p locOf) (hs : s.Over file all)
    (hk : ∀ a, endOf (k a) = start.through (locOf a)) :
    Orders (advance >>= fun _ => p >>= fun a => Pure.pure (k a)) s
      fun b faults _ => s.Closes start (endOf b) faults :=
  orders_advance_bind hs <| Orders.map hs.advanced (hp hs.advanced) fun a _ _ hframes =>
    ⟨locOf a, hk a, (hframes.of_step hs).ends⟩

end

/-- What the productions of a grammar find is in order. -/
structure Grammar.Ordered (g : Grammar) : Prop where
  expression : ∀ precedence, Framed (g.expression precedence) Expr.loc
  statement : Steady g.statement
  branch : Steady g.branch
  type : Steady g.type

/-! ### Small productions -/

theorem orders_integerHere (hs : s.Over file all) :
    Orders integerHere s fun _ faults s' => faults = [] ∧ s' = s := by
  unfold integerHere
  rw [orders_current_bind]
  split
  · exact orders_pure ⟨rfl, rfl⟩
  · rw [orders_here_bind]
    exact orders_fail hs

theorem steady_integerHere : Steady integerHere := fun _ _ _ hs => (orders_integerHere hs).weaken hs

theorem steady_signedInteger : Steady signedInteger := by
  have hdigits (negative : Bool) : Steady (do
      if ← currentIs .int then
        let n ← integerHere
        return if negative then -n else n
      else
        unexpected "integer") := by
    refine steady_currentIs.bind fun int => ?_
    split
    · exact steady_integerHere.bind fun _ => steady_pure
    · exact steady_unexpected
  unfold signedInteger
  refine steady_currentIs.bind fun negative => ?_
  split
  · exact steady_advance.bind fun _ => hdigits true
  · exact hdigits false

theorem steady_nextString : Steady nextString := by
  unfold nextString
  exact steady_expect.bind fun _ => steady_current.bind fun _ => steady_pure

theorem steady_variant : Steady variant := by
  unfold variant
  refine steady_nameHere.bind fun name => steady_nextIs.bind fun assign => ?_
  split
  · exact steady_advance.bind fun _ => steady_advance.bind fun _ =>
      steady_signedInteger.bind fun _ => steady_pure
  · exact steady_pure

theorem steady_skipColon : Steady Grammar.skipColon := by
  unfold Grammar.skipColon
  refine steady_nextIs.bind fun colon => ?_
  split
  · exact steady_advance
  · exact steady_pure

/-! ### Lists and declarations -/

theorem Steady.commaList {item : Parser α} (hitem : Steady item) :
    Steady (commaList item) := by
  rw [commaList_eq]
  refine steady_repeated (fun items => ?_) []
  unfold listPass
  refine hitem.bind fun x => steady_takeComma.bind fun taken => ?_
  split
  · exact steady_pure
  · exact steady_pure

theorem Steady.braceList {item : Parser α} (hitem : Steady item) :
    Steady (Grammar.braceList item) := by
  rw [braceList_eq]
  refine (steady_repeated (fun items => ?_) []).bind fun _ => steady_advance.bind fun _ =>
    steady_pure
  unfold bracePass
  refine steady_nextIs.bind fun close => ?_
  split
  · exact steady_pure
  · refine hitem.bind fun x => steady_nextIs.bind fun close => ?_
    split
    · exact steady_pure
    · exact steady_expect.bind fun _ => steady_pure

theorem steady_inclusion : Steady inclusion := by
  unfold inclusion
  refine steady_here.bind fun start => steady_nextIs.bind fun several => ?_
  split
  · exact steady_advance.bind fun _ => steady_nextString.commaList.bind fun _ =>
      steady_expect.bind fun _ => steady_spanFrom.bind fun _ => steady_pure
  · exact steady_nextString.bind fun _ => steady_spanFrom.bind fun _ => steady_pure

theorem steady_fieldPass (fields : List Name) : Steady (fieldPass fields) := by
  unfold fieldPass
  refine steady_current.bind fun t => ?_
  split
  · exact steady_pure
  · exact steady_nameHere.bind fun _ => steady_advance.bind fun _ => steady_pure
  · exact steady_advance.bind fun _ => steady_pure
  · exact steady_advance.bind fun _ => steady_pure
  · exact steady_unexpected
  · exact steady_unexpected

theorem steady_structDeclaration : Steady structDeclaration := by
  rw [structDeclaration_eq]
  exact steady_here.bind fun _ => steady_expect.bind fun _ => steady_nameHere.bind fun _ =>
    steady_expect.bind fun _ => steady_advance.bind fun _ =>
    (steady_repeated steady_fieldPass []).bind fun _ => steady_spanFrom.bind fun _ =>
    steady_pure

theorem steady_variantPass (variants : List VariantDecl) : Steady (variantPass variants) := by
  unfold variantPass
  refine steady_current.bind fun t => ?_
  split
  · exact steady_pure
  · exact steady_variant.bind fun _ => steady_advance.bind fun _ => steady_pure
  · exact steady_advance.bind fun _ => steady_pure
  · exact steady_unexpected
  · exact steady_unexpected

theorem steady_enumDeclaration : Steady enumDeclaration := by
  rw [enumDeclaration_eq]
  exact steady_here.bind fun _ => steady_expect.bind fun _ => steady_nameHere.bind fun _ =>
    steady_expect.bind fun _ => steady_advance.bind fun _ =>
    (steady_repeated steady_variantPass []).bind fun _ => steady_spanFrom.bind fun _ =>
    steady_pure

theorem steady_namePass (names : List Name) : Steady (Grammar.namePass names) := by
  unfold Grammar.namePass
  refine steady_takeComma.bind fun taken => ?_
  split
  · exact steady_expect.bind fun _ => steady_nameHere.bind fun _ => steady_pure
  · exact steady_pure

namespace Grammar.Ordered

variable (hg : g.Ordered)

include hg

/-! ### Types and functions -/

theorem typeHere : Steady g.typeHere := by
  unfold Grammar.typeHere
  refine steady_here.bind fun start => steady_current.bind fun t => ?_
  split
  · exact steady_expect.bind fun _ => steady_advance.bind fun _ => hg.type.bind fun _ =>
      steady_spanFrom.bind fun _ => steady_pure
  · refine steady_nextKind.bind fun kind => ?_
    split
    · exact steady_advance.bind fun _ => steady_advance.bind fun _ => hg.type.bind fun _ =>
        steady_expect.bind fun _ => steady_advance.bind fun _ => hg.type.bind fun _ =>
        steady_spanFrom.bind fun _ => steady_pure
    · split
      · exact steady_pure
      · exact steady_unexpected

theorem typeMark? : Steady g.typeMark? := by
  unfold Grammar.typeMark?
  refine steady_nextIs.bind fun colon => ?_
  split
  · exact steady_advance.bind fun _ => steady_advance.bind fun _ => hg.type.bind fun _ =>
      steady_pure
  · exact steady_pure

theorem nextType : Steady g.nextType := by
  unfold Grammar.nextType
  exact steady_advance.bind fun _ => hg.type

theorem parameter : Steady g.parameter := by
  unfold Grammar.parameter
  exact steady_expect.bind fun _ => steady_nameHere.bind fun _ => hg.typeMark?.bind fun _ =>
    steady_pure

theorem parameters : Steady g.parameters := by
  unfold Grammar.parameters
  refine steady_nextIs.bind fun none => ?_
  split
  · exact steady_advance.bind fun _ => steady_pure
  · exact hg.parameter.commaList.bind fun _ => steady_expect.bind fun _ => steady_pure

theorem returnTypes : Steady g.returnTypes := by
  unfold Grammar.returnTypes
  refine steady_nextIs.bind fun arrow => ?_
  split
  · refine steady_advance.bind fun _ => steady_nextIs.bind fun several => ?_
    split
    · exact steady_advance.bind fun _ => hg.nextType.commaList.bind fun _ =>
        steady_expect.bind fun _ => steady_pure
    · exact hg.nextType.bind fun _ => steady_pure
  · exact steady_pure

theorem blockPass (statements : List Stmt) : Steady (g.blockPass statements) := by
  unfold Grammar.blockPass
  refine steady_current.bind fun t => ?_
  split
  · exact steady_pure
  · exact steady_unexpected
  · exact hg.statement.optional fun _ => steady_pure

theorem block : Steady g.block := by
  rw [Grammar.block_eq]
  exact steady_here.bind fun _ => steady_advance.bind fun _ =>
    (steady_repeated hg.blockPass []).bind fun _ => steady_spanFrom.bind fun _ => steady_pure

theorem nextBlock : Steady g.nextBlock := by
  unfold Grammar.nextBlock
  exact steady_expect.bind fun _ => hg.block

/-- A function goes from its start to the current token. -/
theorem functionRest (name : Option String) {start : Location} (hs : s.Over file all) :
    Orders (g.functionRest name start) s fun f faults _ => s.Closes start f.loc faults := by
  unfold Grammar.functionRest
  exact hg.parameters.closes hs fun _ _ hs => hg.returnTypes.closes hs fun _ _ hs =>
    hg.nextBlock.closes hs fun _ _ hs => closes_spanFrom hs fun _ => rfl

theorem steady_functionRest (name : Option String) (start : Location) :
    Steady (g.functionRest name start) :=
  fun _ _ _ hs => (hg.functionRest name hs).weaken hs

/-! ### Declarations -/

/-- An operand ends behind what is found in it. -/
theorem operand (hs : s.Over file all) :
    Orders g.operand s fun e faults _ => s.Ends e.loc faults :=
  orders_advance_bind hs <| (hg.expression .lowest hs.advanced).mono hs.advanced
    fun _ _ _ _ _ hframes => (hframes.of_step hs).ends

theorem steady_operand : Steady g.operand := fun _ _ _ hs => (hg.operand hs).weaken hs

theorem binding (constant : Bool) : Steady (g.binding constant) := by
  unfold Grammar.binding
  exact steady_here.bind fun _ => steady_expect.bind fun _ => steady_nameHere.bind fun _ =>
    hg.typeMark?.bind fun _ => steady_expect.bind fun _ => hg.steady_operand.bind fun _ =>
    steady_spanFrom.bind fun _ => steady_pure

theorem definition : Steady g.definition := by
  unfold Grammar.definition
  refine steady_here.bind fun start => steady_expect.bind fun _ => steady_nameHere.bind
    fun first => steady_nextIs.bind fun dot => ?_
  split
  · exact steady_advance.bind fun _ => steady_expect.bind fun _ => steady_current.bind
      fun _ => steady_expect.bind fun _ => (hg.steady_functionRest _ start).bind fun _ =>
      steady_spanFrom.bind fun _ => steady_pure
  · exact steady_expect.bind fun _ => (hg.steady_functionRest _ start).bind fun _ =>
      steady_spanFrom.bind fun _ => steady_pure

theorem returning : Steady g.returning := by
  unfold Grammar.returning
  refine steady_here.bind fun start => steady_nextKind.bind fun kind => ?_
  split
  · exact steady_pure
  · exact steady_pure
  · exact steady_pure
  · exact hg.steady_operand.bind fun _ => steady_spanFrom.bind fun _ => steady_pure

omit hg in
theorem catchParam : Steady Grammar.catchParam := by
  unfold Grammar.catchParam
  refine steady_nextIs.bind fun named => ?_
  split
  · exact steady_advance.bind fun _ => steady_expect.bind fun _ => steady_nameHere.bind
      fun _ => steady_expect.bind fun _ => steady_pure
  · exact steady_pure

theorem attempt : Spanning g.attempt Attempt.loc := by
  intro file all s hs
  rw [Grammar.attempt_eq, orders_here_bind]
  refine hg.nextBlock.closes hs fun body s2 hs2 => ?_
  rw [orders_nextIs_bind]
  split
  · exact steady_advance.closes hs2 fun _ _ hs => catchParam.closes hs fun _ _ hs =>
      hg.nextBlock.closes hs fun _ _ hs => closes_spanFrom hs fun _ => rfl
  · exact closes_spanFrom hs2 fun _ => rfl

theorem expressionStatement : Steady g.expressionStatement := by
  unfold Grammar.expressionStatement
  exact (hg.expression .lowest).steady.bind fun _ => steady_pure

/-! ### Conditionals, loops and switches -/

theorem condition : Steady g.condition := by
  unfold Grammar.condition
  exact steady_expect.bind fun _ => hg.steady_operand.bind fun _ => steady_expect.bind fun _ =>
    steady_pure

theorem alternative : Steady g.alternative := by
  unfold Grammar.alternative
  refine steady_nextIs.bind fun again => ?_
  split
  · exact steady_advance.bind fun _ => hg.branch.bind fun _ => steady_pure
  · exact hg.nextBlock

theorem branchHere : Spanning g.branchHere Expr.loc := by
  intro file all s hs
  unfold Grammar.branchHere
  rw [orders_here_bind]
  refine hg.condition.closes hs fun condition s1 hs1 => hg.nextBlock.closes hs1
    fun consequence s2 hs2 => ?_
  rw [orders_nextIs_bind]
  split
  · exact steady_advance.closes hs2 fun _ _ hs => hg.alternative.closes hs fun _ _ hs =>
      closes_spanFrom hs fun _ => rfl
  · exact closes_spanFrom hs2 fun _ => rfl

theorem whileHere : Spanning g.whileHere Expr.loc := by
  intro file all s hs
  unfold Grammar.whileHere
  rw [orders_here_bind]
  exact hg.condition.closes hs fun _ _ hs => hg.nextBlock.closes hs fun _ _ hs =>
    closes_spanFrom hs fun _ => rfl

theorem operandUnless (stop : Token.Kind) : Steady (g.operandUnless stop) := by
  unfold Grammar.operandUnless
  refine steady_nextIs.bind fun stops => ?_
  split
  · exact steady_pure
  · exact hg.steady_operand.bind fun _ => steady_pure

theorem countingStart : Steady g.countingStart := by
  unfold Grammar.countingStart
  refine steady_current.bind fun t => ?_
  split
  · exact steady_pure
  · exact (hg.binding false).bind fun _ => steady_expect.bind fun _ => steady_pure
  · exact (hg.binding true).bind fun _ => steady_expect.bind fun _ => steady_pure
  · exact hg.expressionStatement.bind fun _ => steady_expect.bind fun _ => steady_pure

theorem loopHeader : Steady g.loopHeader := by
  unfold Grammar.loopHeader
  refine steady_currentIs.bind fun named => steady_nextKind.bind fun following => ?_
  split
  · exact steady_nameHere.bind fun _ => steady_advance.bind fun _ => hg.steady_operand.bind
      fun _ => steady_expect.bind fun _ => steady_pure
  · split
    · exact steady_nameHere.bind fun _ => steady_advance.bind fun _ => steady_expect.bind
        fun _ => steady_nameHere.bind fun _ => steady_expect.bind fun _ =>
        hg.steady_operand.bind fun _ => steady_expect.bind fun _ => steady_pure
    · exact hg.countingStart.bind fun _ => (hg.operandUnless .semicolon).bind fun _ =>
        steady_expect.bind fun _ => (hg.operandUnless .rparen).bind fun _ =>
        steady_expect.bind fun _ => steady_pure

theorem forHere : Spanning g.forHere Expr.loc := by
  intro file all s hs
  unfold Grammar.forHere
  rw [orders_here_bind]
  exact steady_expect.closes hs fun _ _ hs => steady_advance.closes hs fun _ _ hs =>
    hg.loopHeader.closes hs fun _ _ hs => hg.nextBlock.closes hs fun _ _ hs =>
    closes_spanFrom hs fun _ => rfl

theorem caseHere : Steady g.caseHere := by
  unfold Grammar.caseHere
  exact steady_here.bind fun _ => hg.steady_operand.commaList.inCaseValues.bind fun _ =>
    steady_skipColon.bind fun _ => hg.nextBlock.bind fun _ => steady_spanFrom.bind fun _ =>
    steady_pure

theorem defaultHere : Steady g.defaultHere := by
  unfold Grammar.defaultHere
  exact steady_skipColon.bind fun _ => hg.nextBlock

theorem casePass (read : List Case × Option Block) : Steady (g.casePass read) := by
  unfold Grammar.casePass
  refine steady_current.bind fun t => ?_
  split
  · exact steady_pure
  · exact hg.caseHere.bind fun _ => steady_advance.bind fun _ => steady_pure
  · exact hg.defaultHere.bind fun _ => steady_advance.bind fun _ => steady_pure
  · exact steady_unexpected
  · exact steady_unexpected

theorem switchHere : Spanning g.switchHere Expr.loc := by
  intro file all s hs
  rw [Grammar.switchHere_eq, orders_here_bind]
  exact hg.condition.closes hs fun _ _ hs => steady_expect.closes hs fun _ _ hs =>
    steady_advance.closes hs fun _ _ hs =>
    (steady_repeated hg.casePass ([], none)).closes hs fun _ _ hs =>
    closes_spanFrom hs fun _ => rfl

/-! ### Records, maps and arrays -/

theorem itemPass (close : Token.Kind) (items : List Expr) :
    Steady (g.itemPass close items) := by
  unfold Grammar.itemPass
  refine steady_takeComma.bind fun taken => ?_
  split
  · refine steady_nextIs.bind fun closes => ?_
    split
    · exact steady_pure
    · exact hg.steady_operand.bind fun _ => steady_pure
  · exact steady_pure

theorem expressionList (close : Token.Kind) : Steady (g.expressionList close) := by
  rw [Grammar.expressionList_eq]
  refine steady_nextIs.bind fun none => ?_
  split
  · exact steady_advance.bind fun _ => steady_pure
  · exact hg.steady_operand.bind fun _ => (steady_repeated (hg.itemPass close) _).bind fun _ =>
      steady_expect.bind fun _ => steady_pure

theorem field : Steady g.field := by
  unfold Grammar.field
  exact steady_expect.bind fun _ => steady_nameHere.bind fun _ => steady_expect.bind
    fun _ => hg.steady_operand.bind fun _ => steady_pure

theorem entry : Steady g.entry := by
  unfold Grammar.entry
  exact hg.steady_operand.bind fun _ => steady_expect.bind fun _ => hg.steady_operand.bind fun _ =>
    steady_pure

theorem mapHere : Spanning g.mapHere Expr.loc := by
  intro file all s hs
  unfold Grammar.mapHere
  rw [orders_here_bind]
  exact hg.entry.braceList.closes hs fun _ _ hs => closes_spanFrom hs fun _ => rfl

theorem arrayHere : Spanning g.arrayHere Expr.loc := by
  intro file all s hs
  unfold Grammar.arrayHere
  rw [orders_here_bind]
  exact (hg.expressionList .rbracket).closes hs fun _ _ hs =>
    closes_spanFrom hs fun _ => rfl

/-! ### Operands -/

theorem nameOrRecord : Framed g.nameOrRecord Expr.loc := by
  intro file all s hs
  unfold Grammar.nameOrRecord
  rw [orders_nameHere_bind, orders_nextIs_bind, orders_insideCase_bind]
  split
  · exact orders_pure hs.frames
  · exact Orders.frames hs hs.frames <|
      steady_advance.closes hs fun _ _ hs => hg.field.braceList.closes hs fun _ _ hs =>
      closes_spanFrom hs fun _ => rfl

theorem unaryHere : Spanning g.unaryHere Expr.loc := by
  intro file all s hs
  unfold Grammar.unaryHere
  rw [orders_here_bind, orders_current_bind]
  exact (hg.expression .unary).closes hs fun _ => rfl

theorem spreadHere : Spanning g.spreadHere Expr.loc := by
  intro file all s hs
  unfold Grammar.spreadHere
  rw [orders_here_bind]
  exact (hg.expression .unary).closes hs fun _ => rfl

theorem arrowBody (params : List Name) (hs : s.Over file all) :
    Orders (g.arrowBody params start) s fun e faults _ => s.Closes start e.loc faults :=
  Orders.map hs (hg.operand hs) fun body _ _ hends => ⟨body.loc, rfl, hends⟩

theorem groupHere : Framed g.groupHere Expr.loc := by
  intro file all s hs
  rw [Grammar.groupHere_eq, orders_here_bind, orders_nextIs_bind]
  split
  · exact Orders.frames hs hs.frames <| steady_advance.closes hs fun _ _ hs =>
      steady_expect.closes hs fun _ _ hs => hg.arrowBody [] hs
  · refine orders_advance_bind hs ?_
    have hopen := hs.frames.step hs
    rw [orders_currentIs_bind, orders_nextKind_bind]
    split
    · rw [orders_nameHere_bind]
      exact Orders.frames hs.advanced hopen <|
        (steady_repeated steady_namePass []).closes hs.advanced fun _ _ hs =>
          steady_expect.closes hs fun _ _ hs => steady_expect.closes hs fun _ _ hs =>
            hg.arrowBody _ hs
    · split
      · rw [orders_nameHere_bind]
        have hname := (hs.advanced.frames.step hs.advanced).of_step hs
        refine orders_advance_bind hs.advanced ?_
        rw [orders_nextIs_bind]
        split
        · exact Orders.frames hs.advanced.advanced (hopen.step hs.advanced) <|
            steady_advance.closes hs.advanced.advanced fun _ _ hs => hg.arrowBody _ hs
        · exact orders_pure hname
      · refine (hg.expression .lowest hs.advanced).bind hs.advanced fun inner faults s' hs' _
          hframes => orders_expect_bind hs' (orders_pure ?_)
        simpa using (hframes.step hs').of_step hs

theorem functionHere : Spanning g.functionHere Expr.loc := by
  have hname : Steady (do
      if ← nextIs .ident then
        advance
        return some (← current).text
      else
        return none) := by
    refine steady_nextIs.bind fun named => ?_
    split
    · exact steady_advance.bind fun _ => steady_current.bind fun _ => steady_pure
    · exact steady_pure
  intro file all s hs
  unfold Grammar.functionHere
  rw [orders_here_bind]
  exact hname.closes hs fun name _ hs => steady_expect.closes hs fun _ _ hs =>
    Orders.map hs (hg.functionRest name hs) fun _ _ _ hcloses => hcloses

theorem operandHere : Framed g.operandHere Expr.loc := by
  intro file all s hs
  unfold Grammar.operandHere
  rw [orders_current_bind, orders_here_bind]
  split
  case h_1 => exact hg.nameOrRecord hs
  case h_2 =>
    refine Orders.map hs (orders_integerHere hs) ?_
    rintro n _ _ ⟨rfl, rfl⟩
    exact hs.frames
  case h_3 =>
    unfold floatHere
    rw [orders_current_bind, orders_here_bind]
    split
    · exact orders_pure hs.frames
    · exact orders_fail hs
  case h_4 | h_5 | h_6 => exact orders_pure hs.frames
  case h_7 | h_8 | h_9 | h_10 => exact hg.unaryHere.framed hs
  case h_11 => exact hg.groupHere hs
  case h_12 => exact hg.arrayHere.framed hs
  case h_13 => exact hg.mapHere.framed hs
  case h_14 => exact hg.branchHere.framed hs
  case h_15 => exact hg.whileHere.framed hs
  case h_16 => exact hg.forHere.framed hs
  case h_17 => exact hg.switchHere.framed hs
  case h_18 => exact Orders.map hs (hg.attempt.framed hs) fun _ _ _ hframes => hframes
  case h_19 => exact hg.functionHere.framed hs
  case h_20 => exact hg.spreadHere.framed hs
  case h_21 | h_22 => exact orders_fail hs
  case h_23 =>
    split
    · rw [orders_nameHere_bind]
      exact orders_pure hs.frames
    · exact orders_fail hs

/-! ### Operators -/

section

variable (left : Expr) (hs : s.Over file all)

include hs

theorem binaryHere (op : BinaryOp) : Orders (g.binaryHere left op) s fun e faults _ =>
    s.Closes left.loc e.loc faults := by
  unfold Grammar.binaryHere
  rw [orders_current_bind]
  exact (hg.expression _).closes hs fun _ => rfl

theorem assignHere (op : AssignOp) : Orders (g.assignHere left op) s fun e faults _ =>
    s.Closes left.loc e.loc faults :=
  Orders.map hs (hg.operand hs) fun value _ _ hends => ⟨value.loc, rfl, hends⟩

theorem rangeHere : Orders (g.rangeHere left) s fun e faults _ =>
    s.Closes left.loc e.loc faults := by
  unfold Grammar.rangeHere
  exact (hg.expression .range).closes hs fun _ => rfl

theorem ternaryHere : Orders (g.ternaryHere left) s fun e faults _ =>
    s.Closes left.loc e.loc faults := by
  unfold Grammar.ternaryHere
  exact hg.steady_operand.closes hs fun _ _ hs => steady_expect.closes hs fun _ _ hs =>
    Orders.map hs (hg.operand hs) fun alternative _ _ hends => ⟨alternative.loc, rfl, hends⟩

theorem callHere : Orders (g.callHere left) s fun e faults _ =>
    s.Closes left.loc e.loc faults := by
  unfold Grammar.callHere
  exact (hg.expressionList .rparen).closes hs fun _ _ hs => closes_spanFrom hs fun _ => rfl

omit hs in
theorem sliceStop : Steady g.sliceStop := by
  unfold Grammar.sliceStop
  exact (hg.operandUnless .rbracket).bind fun _ => steady_expect.bind fun _ => steady_pure

theorem indexHere : Orders (g.indexHere left) s fun e faults _ =>
    s.Closes left.loc e.loc faults := by
  unfold Grammar.indexHere
  rw [orders_nextIs_bind]
  split
  · exact steady_advance.closes hs fun _ _ hs => hg.sliceStop.closes hs fun _ _ hs =>
      closes_spanFrom hs fun _ => rfl
  · refine hg.steady_operand.closes hs fun index s' hs' => ?_
    rw [orders_nextIs_bind]
    split
    · exact steady_advance.closes hs' fun _ _ hs => hg.sliceStop.closes hs fun _ _ hs =>
        closes_spanFrom hs fun _ => rfl
    · exact steady_expect.closes hs' fun _ _ hs => closes_spanFrom hs fun _ => rfl

omit hg in
theorem memberHere : Orders (Grammar.memberHere left) s fun e faults _ =>
    s.Closes left.loc e.loc faults := by
  unfold Grammar.memberHere
  rw [orders_nextKind_bind]
  split
  · refine orders_advance_bind hs ?_
    rw [orders_nameHere_bind]
    exact orders_pure ⟨_, rfl, (hs.advanced.frames.of_step hs).ends⟩
  · exact orders_failAtNext hs

omit hg in
theorem stepHere (op : StepOp) : Orders (Grammar.stepHere left op) s fun e faults _ =>
    s.Closes left.loc e.loc faults :=
  closes_spanFrom hs fun _ => rfl

end

section

variable (hfirst : first.Over file all) (hmeets : first.Meets faults s s.current.start)
  (hleft : first.Frames left.loc faults s)

include hfirst hmeets hleft

/-- An arrow is reported at the operand in front of it, in which all stands that was found
in that operand. -/
theorem arrowHere : OrdersSince first (g.arrowHere left) s
    fun e faults s' => first.Frames e.loc faults s' := by
  have hs : s.Over file all := hmeets.stillOver hfirst
  have hnext := hs.before_next.start
  unfold Grammar.arrowHere
  split
  · exact Orders.extend hfirst hmeets hleft (hg.arrowBody _ hs)
  · exact ⟨_, hmeets.push (f := ⟨.operator _ _, _⟩)
      (fun f hf => Or.inr ⟨rfl, hleft.front f hf, hleft.behind f hf⟩) hleft.starts hnext
      (hleft.reached.trans hnext)⟩

theorem operatorHere : OrdersSince first (g.operatorHere left) s
    fun e faults s' => first.Frames e.loc faults s' := by
  have hs : s.Over file all := hmeets.stillOver hfirst
  have hframes : ∀ {p : Parser Expr},
      Orders p s (fun e faults' _ => s.Closes left.loc e.loc faults') →
      OrdersSince first p s fun e faults s' => first.Frames e.loc faults s' :=
    fun hp => hp.extend hfirst hmeets hleft
  unfold Grammar.operatorHere
  rw [ordersSince_current_bind]
  dsimp only
  split
  · exact hframes (hg.binaryHere left hs _)
  · exact hframes (hg.assignHere left hs _)
  · exact hframes (hg.rangeHere left hs)
  · exact hframes (hg.ternaryHere left hs)
  · exact hg.arrowHere hfirst hmeets hleft
  · exact hframes (hg.callHere left hs)
  · exact hframes (hg.indexHere left hs)
  · exact hframes (memberHere left hs)
  · exact hframes (stepHere left hs _)
  · exact hframes (stepHere left hs _)
  · exact ⟨faults, hmeets, hleft⟩

theorem operatorPass (precedence : Precedence) :
    OrdersSince first (g.operatorPass precedence left) s fun pass faults s' =>
      pass.Keeps (fun e s' => first.Frames e.loc faults s')
        (fun e s' => first.Frames e.loc faults s') s' := by
  have hs : s.Over file all := hmeets.stillOver hfirst
  unfold Grammar.operatorPass
  rw [ordersSince_nextKind_bind]
  split
  · have hstep : first.Meets faults s.advanced s.advanced.current.start :=
      hmeets.step.mono (by rw [s.advanced_current]; exact hs.before_next.start)
    refine ordersSince_advance_bind
      ((hg.operatorHere hfirst hstep (hleft.step hs)).bind fun e faults s' hmeets' he => ?_)
    exact ⟨faults, hmeets', he⟩
  · exact ⟨faults, hmeets, hleft⟩

end

theorem expressionHere (precedence : Precedence) :
    Framed (g.expressionHere precedence) Expr.loc := by
  intro file all s hs
  rw [Grammar.expressionHere_eq]
  refine OrdersSince.bind (hg.operandHere hs) fun operand faults s' hmeets hframes => ?_
  -- What has been read so far frames all that has been found since the first operand.
  exact ordersSince_iterate (I := fun e faults s' => s.Frames e.loc faults s')
    (fun left faults s' hmeets hframes => hg.operatorPass hs hmeets hframes precedence) _
    hmeets hframes

/-! ### Statements -/

theorem statementBody : Steady g.statementBody := by
  unfold Grammar.statementBody
  refine steady_current.bind fun t => ?_
  split
  · exact hg.binding false
  · exact hg.binding true
  · exact hg.returning
  · exact steady_inclusion
  · exact hg.attempt.steady.bind fun _ => steady_pure
  · exact steady_structDeclaration
  · exact steady_enumDeclaration
  · exact steady_here.bind fun _ => steady_pure
  · exact steady_here.bind fun _ => steady_pure
  · exact steady_giveUp
  · refine steady_nextIs.bind fun function => ?_
    split
    · exact hg.expressionStatement
    · exact hg.definition
  · exact hg.expressionStatement

theorem statementHere : Steady g.statementHere := by
  unfold Grammar.statementHere
  refine hg.statementBody.bind fun st => steady_nextIs.bind fun more => ?_
  split
  · exact steady_advance.bind fun _ => steady_pure
  · exact steady_pure

theorem programPass (statements : List Stmt) : Steady (g.programPass statements) := by
  unfold Grammar.programPass
  refine steady_currentIs.bind fun ends => ?_
  split
  · exact steady_pure
  · exact hg.statement.optional fun _ => steady_pure

theorem program : Steady (Parser.program g) := by
  rw [program_eq]
  exact steady_here.bind fun _ => (steady_repeated hg.programPass []).bind fun _ =>
    steady_spanFrom.bind fun _ => steady_pure

end Grammar.Ordered

theorem ordered_grammar (n : Nat) : (grammar n).Ordered := by
  induction n with
  | zero => exact ⟨fun _ _ _ _ _ => trivial, fun _ _ _ _ => trivial, fun _ _ _ _ => trivial,
      fun _ _ _ _ => trivial⟩
  | succ n ih =>
    exact ⟨fun precedence _ _ _ hs => ih.expressionHere precedence hs,
      fun _ _ _ hs => ih.statementHere hs, fun _ _ _ hs => ih.branchHere.steady hs,
      fun _ _ _ hs => ih.typeHere hs⟩

/-! ### Source texts -/

/-- What is wrong with a refused text, in the order in which it was found. -/
theorem exists_faults {source : String} {failure : ParseFailure}
    (h : parse file source = .error failure) : ∃ faults : List Fault,
      failure.diagnostics = faults.map (·.report.attach source) ∧
      faults.Pairwise Fault.Precedes := by
  obtain ⟨p, s, hrun⟩ := exists_program file source
  have horders := (ordered_grammar (boundOf source)).program (over_startOf file source)
  unfold Orders OrdersSince at horders
  rw [hrun] at horders
  obtain ⟨faults, hmeets, -⟩ := horders
  rw [parse_of_program hrun] at h
  split at h
  · cases h
  · obtain rfl := Except.error.inj h
    refine ⟨faults, hmeets.records.diagnostics.trans ?_, hmeets.ordered⟩
    rw [List.map_map]
    rfl

end Parser

/-- One report does not start behind another one. -/
def Diagnostic.StartsBefore (d d' : Diagnostic) : Prop :=
  ∃ loc ∈ d.location?, ∃ loc' ∈ d'.location?, loc.start ≤ loc'.start

instance : DecidableRel Diagnostic.StartsBefore :=
  fun d d' => inferInstanceAs
    (Decidable (∃ loc ∈ d.location?, ∃ loc' ∈ d'.location?, loc.start ≤ loc'.start))

/-- One report starts in the region of another one. -/
def Diagnostic.StartsIn (d d' : Diagnostic) : Prop :=
  ∃ loc ∈ d.location?, ∃ loc' ∈ d'.location?,
    loc'.start ≤ loc.start ∧ loc.start < loc'.stop

theorem Fault.Precedes.reports {f f' : Fault} (h : f.Precedes f') (source : String) :
    (f.report.attach source).StartsBefore (f'.report.attach source) ∨
      (f'.report.attach source).code = .operator ∧
        (f.report.attach source).StartsIn (f'.report.attach source) := by
  rcases h with hle | ⟨hcode, hin⟩
  · exact Or.inl ⟨f.loc, rfl, f'.loc, rfl, hle⟩
  · exact Or.inr ⟨hcode, f.loc, rfl, f'.loc, rfl, hin⟩

/-- The problems of a refused text are reported in source order, but for an operator that
does not fit the operand in front of it: that is reported at the operand, behind what was
found in the operand.  Without such a report no report starts in front of an earlier one. -/
theorem reports_in_source_order {file source : String} {failure : ParseFailure}
    (h : parse file source = .error failure) :
    (∀ d ∈ failure.diagnostics, ∃ loc, d.location? = some loc) ∧
    failure.diagnostics.Pairwise (fun d d' =>
      d.StartsBefore d' ∨ d'.code = .operator ∧ d.StartsIn d') ∧
    ((∀ d ∈ failure.diagnostics, d.code ≠ .operator) →
      failure.diagnostics.Pairwise Diagnostic.StartsBefore) := by
  obtain ⟨faults, hdiagnostics, hordered⟩ := Parser.exists_faults h
  have hpairwise : failure.diagnostics.Pairwise fun d d' =>
      d.StartsBefore d' ∨ d'.code = .operator ∧ d.StartsIn d' := by
    rw [hdiagnostics]
    exact hordered.map _ fun f f' hf => hf.reports source
  refine ⟨fun d hd => ?_, hpairwise, fun hnone => ?_⟩
  · rw [hdiagnostics] at hd
    obtain ⟨f, -, rfl⟩ := List.mem_map.mp hd
    exact ⟨f.loc, rfl⟩
  · refine hpairwise.imp_of_mem fun _ hd' hor => hor.resolve_right ?_
    exact fun ⟨hcode, _⟩ => hnone _ hd' hcode

/-! ### An arrow behind a block -/

/-- An arrow behind a conditional in whose block something is wrong. -/
def arrowBehindBlock : String := "if (x) \x7b ) \x7d => 1;"

/-- Of the two reports the second one is that of the arrow.  Where names are missing the
reports are sorted. -/
theorem reports_in_source_order_arrowBehindBlock :
    (∃ failure, parse "" arrowBehindBlock = .error failure ∧
      failure.diagnostics.Pairwise fun d d' =>
        d.StartsBefore d' ∨ d'.code = .operator ∧ d.StartsIn d') ∧
    ∃ failure, parse "" missingNames = .error failure ∧
      failure.diagnostics.Pairwise Diagnostic.StartsBefore := by
  have hrefused : (match parse "" arrowBehindBlock, parse "" missingNames with
      | .error _, .error failure => failure.diagnostics.all (·.code != .operator)
      | _, _ => false) = true := by
    decide +kernel
  split at hrefused
  · next failure failure' hparse hparse' =>
    have hnone : ∀ d ∈ failure'.diagnostics, d.code ≠ .operator := by
      simpa using hrefused
    exact ⟨⟨failure, hparse, (reports_in_source_order hparse).2.1⟩,
      failure', hparse', (reports_in_source_order hparse').2.2 hnone⟩
  · cases hrefused

/-- The report on the arrow comes second and starts in front of the first one. -/
theorem reports_unsorted_arrowBehindBlock : ∃ failure,
    parse "" arrowBehindBlock = .error failure ∧
    ¬ failure.diagnostics.Pairwise Diagnostic.StartsBefore := by
  have hunsorted : (match parse "" arrowBehindBlock with
      | .ok _ => false
      | .error failure => !decide (failure.diagnostics.Pairwise Diagnostic.StartsBefore)) =
      true := by
    decide +kernel
  split at hunsorted
  · cases hunsorted
  · next failure hparse => exact ⟨failure, hparse, by simpa using hunsorted⟩

end Script
