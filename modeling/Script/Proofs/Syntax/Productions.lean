import Script.Proofs.Syntax.Passes
import Script.Proofs.Syntax.Progress

/-!
# Every production moves on

A production calls itself only behind the token it starts with.  So it is enough that
the grammar inside it serves states with fewer pending tokens, and this is what a
production does in a state that has that few behind its current token.
-/

namespace Script

namespace Parser

variable {α β σ : Type} {E : Prop} {z : Zone} {b : Nat} {g : Grammar}

/-- The grammar does in states with fewer than `b` pending tokens what productions
do. -/
structure Grammar.Serves (E : Prop) (b : Nat) (g : Grammar) : Prop where
  expression : ∀ precedence, Goes E (.below b) (g.expression precedence)
  statement : Goes E (.below b) g.statement
  branch : Goes E (.below b) g.branch
  type : Goes E (.below b) g.type

/-! ### Small productions -/

/-- A number that is too large is an error, but no reason to move. -/
theorem goes_integerHere : Goes E z integerHere := by
  unfold integerHere
  refine goes_current.bind fun t => ?_
  split
  · exact goes_pure
  · exact goes_here.bind fun _ => goes_fail

theorem goes_signedInteger : Goes E z signedInteger := by
  have hdigits (negative : Bool) : Goes E z (do
      if ← currentIs .int then
        let n ← integerHere
        return if negative then -n else n
      else
        unexpected "integer") := by
    refine goes_currentIs.bind fun int => ?_
    split
    · exact goes_integerHere.bind fun _ => goes_pure
    · exact goes_unexpected
  unfold signedInteger
  refine goes_currentIs.bind fun negative => ?_
  split
  · exact goes_advance.bind fun _ => hdigits true
  · exact hdigits false

theorem goes_floatHere : Goes E z floatHere := by
  unfold floatHere
  refine goes_current.bind fun t => goes_here.bind fun loc => ?_
  split
  · exact goes_pure
  · exact goes_fail

/-- The token is taken first, so what is looked at is the string itself. -/
theorem goes_nextString : Goes E z nextString := by
  unfold nextString
  exact goes_expect.bind fun _ => goes_current.bind fun _ => goes_pure

/-- A variant may have a number, and the number a minus sign. -/
theorem goes_variant : Goes E z variant := by
  unfold variant
  refine goes_nameHere.bind fun name => goes_nextIs.bind fun assign => ?_
  split
  · exact goes_advance.bind fun _ => goes_advance.bind fun _ =>
      goes_signedInteger.bind fun _ => goes_pure
  · exact goes_pure

theorem goes_skipColon : Goes E z Grammar.skipColon := by
  unfold Grammar.skipColon
  refine goes_nextIs.bind fun colon => ?_
  split
  · exact goes_advance
  · exact goes_pure

/-- An expression statement starts where its expression does, so nothing is consumed in
front of it. -/
theorem goes_expressionStatement (hexpression : Goes E z (g.expression .lowest)) :
    Goes E z g.expressionStatement := by
  unfold Grammar.expressionStatement
  exact hexpression.bind fun _ => goes_pure

/-- What follows a dot is looked at before it is taken. -/
theorem goes_memberHere (left : Expr) : Goes E z (Grammar.memberHere left) := by
  unfold Grammar.memberHere
  refine goes_nextKind.bind fun kind => ?_
  split
  · exact goes_advance.bind fun _ => goes_nameHere.bind fun _ => goes_pure
  · exact goes_failAtNext

theorem goes_stepHere (left : Expr) (op : StepOp) : Goes E z (Grammar.stepHere left op) := by
  unfold Grammar.stepHere
  exact goes_spanFrom.bind fun _ => goes_pure

/-! ### Loops that do not contain themselves -/

/-- A list goes on behind a comma, and the token in front of the comma is consumed. -/
theorem loops_listPass {item : Parser α} (hitem : Goes E z item) :
    Loops E z (listPass item) := by
  intro items
  refine Moves.bind hitem fun s x s' hs hforward hz _ => ?_
  refine leads_takeComma.bind fun taken s'' _ htaken => ?_
  split
  · next hcomma =>
    obtain ⟨rfl, hnext⟩ := htaken hcomma
    refine leads_pure (hs.consumes hforward.advanced ?_)
    rw [s'.advanced_current, hnext]
    decide
  · exact leads_pure trivial

/-- A list of items between commas, the first of which has to be there. -/
theorem Goes.commaList {item : Parser α} (hitem : Goes E z item) :
    Goes E z (commaList item) := by
  rw [commaList_eq]
  exact goes_repeated (loops_listPass hitem) []

/-- Behind an item that starts with a move there has to be a comma or the closing
brace. -/
theorem loops_bracePass {item : Parser α}
    (hitem : Advances E z item) :
    Loops E z (bracePass item) := by
  intro items s hs hz
  unfold bracePass
  rw [leads_nextIs_bind]
  split
  · exact leads_pure trivial
  · refine (hitem s hs hz).bind fun x s' hforward hmoved => ?_
    have hconsumes (hnext : s'.next.kind ≠ .eof) : s.Consumes s' :=
      hs.consumes hmoved fun hcurrent => hnext ((hs.forward hforward).next_eof hcurrent)
    rw [leads_nextIs_bind]
    split
    · next hclose =>
      rw [beq_iff_eq] at hclose
      refine leads_pure (hconsumes ?_)
      rw [hclose]
      decide
    · refine leads_expect.bind ?_
      rintro _ s'' _ ⟨rfl, hcomma⟩
      refine leads_pure (hs.consumes hforward.advanced ?_)
      rw [s'.advanced_current, hcomma]
      decide

/-- Behind the items there is a brace to be taken, whether any item was there or not. -/
theorem Goes.braceList {item : Parser α}
    (hitem : Advances E z item) :
    Goes E z (Grammar.braceList item) := by
  rw [braceList_eq]
  exact (goes_repeated (loops_bracePass hitem) []).bind fun _ =>
    goes_advance.bind fun _ => goes_pure

/-- A pass that moves from a token which is not the end of input consumes it. -/
theorem leads_again {state : σ} {s s' : State} (hcurrent : s.current.kind ≠ .eof)
    (hforward : s.Forward s') :
    Leads E (do advance; return .again state : Parser (Pass σ β)) s'
      fun pass s'' => pass.Consumed s s'' :=
  leads_advance_bind (leads_pure ⟨hcurrent, hforward.advanced⟩)

/-- The fields of a struct end at a brace.  Whatever else a pass takes is no end of
input. -/
theorem loops_fieldPass : Loops E z fieldPass := by
  intro fields s hs hz
  unfold fieldPass
  rw [leads_current_bind]
  split
  · exact leads_pure trivial
  · next hident => exact leads_again (by rw [hident]; decide) (.refl s)
  · next hcomma => exact leads_again (by rw [hcomma]; decide) (.refl s)
  · next hsemicolon => exact leads_again (by rw [hsemicolon]; decide) (.refl s)
  · exact leads_unexpected
  · exact leads_unexpected

/-- The name of a variant was looked at, so the pass that reads it does not start at the
end of input. -/
theorem loops_variantPass : Loops E z variantPass := by
  intro variants s hs hz
  unfold variantPass
  rw [leads_current_bind]
  split
  · exact leads_pure trivial
  · next hident =>
    refine (goes_variant s hs hz).bind fun v s' hforward _ => ?_
    exact leads_again (by rw [hident]; decide) hforward
  · next hcomma => exact leads_again (by rw [hcomma]; decide) (.refl s)
  · exact leads_unexpected
  · exact leads_unexpected

/-- Further names of an arrow function stand behind commas. -/
theorem loops_namePass : Loops E z Grammar.namePass := by
  intro names s hs hz
  unfold Grammar.namePass
  refine leads_takeComma.bind fun taken s' hforward htaken => ?_
  split
  · next hcomma =>
    obtain ⟨rfl, hnext⟩ := htaken hcomma
    have hconsumes : s.Consumes s.advanced :=
      hs.consumes (.refl _) (by rw [s.advanced_current, hnext]; decide)
    have hexpect : Goes E z (expect .ident) := goes_expect
    refine (hexpect s.advanced hs.advanced (z.stays hs hforward hz)).bind fun _ s'' hforward' _ => ?_
    rw [leads_nameHere_bind]
    exact leads_pure ⟨hconsumes.not_eof, hforward'⟩
  · exact leads_pure trivial

/-! ### Lists and declarations -/

theorem goes_inclusion : Goes E z inclusion := by
  unfold inclusion
  refine goes_here.bind fun start => goes_nextIs.bind fun several => ?_
  split
  · exact goes_advance.bind fun _ => goes_nextString.commaList.bind fun _ =>
      goes_expect.bind fun _ => goes_spanFrom.bind fun _ => goes_pure
  · exact goes_nextString.bind fun _ => goes_spanFrom.bind fun _ => goes_pure

/-- Nothing of a struct is read by the grammar again. -/
theorem goes_structDeclaration : Goes E z structDeclaration := by
  rw [structDeclaration_eq]
  exact goes_here.bind fun _ => goes_expect.bind fun _ => goes_nameHere.bind fun _ =>
    goes_expect.bind fun _ => goes_advance.bind fun _ =>
    (goes_repeated loops_fieldPass []).bind fun _ => goes_spanFrom.bind fun _ =>
    goes_pure

/-- Nothing of an enumeration is read by the grammar again. -/
theorem goes_enumDeclaration : Goes E z enumDeclaration := by
  rw [enumDeclaration_eq]
  exact goes_here.bind fun _ => goes_expect.bind fun _ => goes_nameHere.bind fun _ =>
    goes_expect.bind fun _ => goes_advance.bind fun _ =>
    (goes_repeated loops_variantPass []).bind fun _ => goes_spanFrom.bind fun _ =>
    goes_pure

namespace Grammar.Serves

variable (hg : g.Serves E b)

include hg

/-- An operand that is read from the token in front of it consumes that token. -/
theorem advances_operand : Advances E (.nearly b) g.operand := by
  unfold Grammar.operand
  exact Advances.advance_bind (hg.expression .lowest)

theorem operand : Goes E (.nearly b) g.operand := hg.advances_operand.goes

/-! ### Types -/

/-- The types inside an array or map type stand behind a bracket. -/
theorem typeHere : Goes E (.nearly b) g.typeHere := by
  unfold Grammar.typeHere
  refine goes_here.bind fun start => goes_current.bind fun t => ?_
  split
  · refine Goes.expect_bind (goes_advance.bind fun _ => hg.type.bind fun _ => ?_)
    exact goes_spanFrom.bind fun _ => goes_pure
  · refine goes_nextKind.bind fun kind => ?_
    split
    · refine Goes.advance_bind (goes_advance.bind fun _ => hg.type.bind fun _ => ?_)
      exact goes_expect.bind fun _ => goes_advance.bind fun _ => hg.type.bind fun _ =>
        goes_spanFrom.bind fun _ => goes_pure
    · split
      · exact goes_pure
      · exact goes_unexpected

/-- A type mark may be missing, and then nothing is taken. -/
theorem typeMark? : Goes E (.nearly b) g.typeMark? := by
  unfold Grammar.typeMark?
  refine goes_nextIs.bind fun colon => ?_
  split
  · exact Goes.advance_bind (goes_advance.bind fun _ => hg.type.bind fun _ => goes_pure)
  · exact goes_pure

theorem nextType : Goes E (.nearly b) g.nextType := by
  unfold Grammar.nextType
  exact Goes.advance_bind hg.type

/-! ### Functions -/

theorem parameter : Goes E (.nearly b) g.parameter := by
  unfold Grammar.parameter
  exact goes_expect.bind fun _ => goes_nameHere.bind fun _ => hg.typeMark?.bind fun _ =>
    goes_pure

/-- Between the parentheses there may be nothing. -/
theorem parameters : Goes E (.nearly b) g.parameters := by
  unfold Grammar.parameters
  refine goes_nextIs.bind fun none => ?_
  split
  · exact goes_advance.bind fun _ => goes_pure
  · exact hg.parameter.commaList.bind fun _ => goes_expect.bind fun _ => goes_pure

/-- One type, or several in parentheses, or none. -/
theorem returnTypes : Goes E (.nearly b) g.returnTypes := by
  unfold Grammar.returnTypes
  refine goes_nextIs.bind fun arrow => ?_
  split
  · refine goes_advance.bind fun _ => goes_nextIs.bind fun several => ?_
    split
    · exact goes_advance.bind fun _ => hg.nextType.commaList.bind fun _ =>
        goes_expect.bind fun _ => goes_pure
    · exact hg.nextType.bind fun _ => goes_pure
  · exact goes_pure

/-! ### Blocks and functions -/

/-- A statement that fails is left out, and the next one starts behind the token where
it gave up.  So the pass moves on in any case. -/
theorem loops_blockPass : Loops E (.below b) g.blockPass := by
  intro statements s hs hz
  unfold Grammar.blockPass
  rw [leads_current_bind]
  split
  · exact leads_pure trivial
  · exact leads_unexpected
  · next heof =>
    refine (hg.statement.optional s hs hz).bind fun statement s' hforward _ => ?_
    exact leads_again heof hforward

/-- The statements start behind the opening brace. -/
theorem block : Goes E (.nearly b) g.block := by
  rw [Grammar.block_eq]
  refine goes_here.bind fun start => Goes.advance_bind ?_
  exact (goes_repeated hg.loops_blockPass []).bind fun _ => goes_spanFrom.bind fun _ =>
    goes_pure

theorem nextBlock : Goes E (.nearly b) g.nextBlock := by
  unfold Grammar.nextBlock
  exact goes_expect.bind fun _ => hg.block

/-- What follows the name of a function, from the parameters to the end of the body. -/
theorem functionRest (name : Option String) (start : Location) :
    Goes E (.nearly b) (g.functionRest name start) := by
  unfold Grammar.functionRest
  exact hg.parameters.bind fun _ => hg.returnTypes.bind fun _ => hg.nextBlock.bind fun _ =>
    goes_spanFrom.bind fun _ => goes_pure

/-! ### Declarations -/

/-- A declaration has taken its name before it reads an expression. -/
theorem binding (constant : Bool) : Goes E (.nearly b) (g.binding constant) := by
  unfold Grammar.binding
  exact goes_here.bind fun _ => goes_expect.bind fun _ => goes_nameHere.bind fun _ =>
    hg.typeMark?.bind fun _ => goes_expect.bind fun _ => hg.operand.bind fun _ =>
    goes_spanFrom.bind fun _ => goes_pure

/-- A function or a method, by what follows the first name. -/
theorem definition : Goes E (.nearly b) g.definition := by
  unfold Grammar.definition
  refine goes_here.bind fun start => goes_expect.bind fun _ => goes_nameHere.bind
    fun first => goes_nextIs.bind fun dot => ?_
  split
  · exact goes_advance.bind fun _ => goes_expect.bind fun _ => goes_current.bind fun _ =>
      goes_expect.bind fun _ => (hg.functionRest _ start).bind fun _ =>
      goes_spanFrom.bind fun _ => goes_pure
  · exact goes_expect.bind fun _ => (hg.functionRest _ start).bind fun _ =>
      goes_spanFrom.bind fun _ => goes_pure

/-- What follows `return` is an operand unless the statement ends there. -/
theorem returning : Goes E (.nearly b) g.returning := by
  unfold Grammar.returning
  refine goes_here.bind fun start => goes_nextKind.bind fun kind => ?_
  split
  · exact goes_pure
  · exact goes_pure
  · exact goes_pure
  · exact hg.operand.bind fun _ => goes_spanFrom.bind fun _ => goes_pure

omit hg in
theorem catchParam : Goes E z Grammar.catchParam := by
  unfold Grammar.catchParam
  refine goes_nextIs.bind fun named => ?_
  split
  · exact goes_advance.bind fun _ => goes_expect.bind fun _ => goes_nameHere.bind
      fun _ => goes_expect.bind fun _ => goes_pure
  · exact goes_pure

/-- The handler may be missing, its parameter too. -/
theorem attempt : Goes E (.nearly b) g.attempt := by
  rw [Grammar.attempt_eq]
  refine goes_here.bind fun start => hg.nextBlock.bind fun body => goes_nextIs.bind
    fun catches => ?_
  split
  · exact goes_advance.bind fun _ => catchParam.bind fun _ => hg.nextBlock.bind
      fun _ => goes_spanFrom.bind fun _ => goes_pure
  · exact goes_spanFrom.bind fun _ => goes_pure

/-! ### Branches and loops -/

theorem condition : Goes E (.nearly b) g.condition := by
  unfold Grammar.condition
  exact goes_expect.bind fun _ => hg.operand.bind fun _ => goes_expect.bind fun _ =>
    goes_pure

/-- Either another branch, which starts behind the token looked at here, or a block. -/
theorem alternative : Goes E (.nearly b) g.alternative := by
  unfold Grammar.alternative
  refine goes_nextIs.bind fun again => ?_
  split
  · exact Goes.advance_bind (hg.branch.bind fun _ => goes_pure)
  · exact hg.nextBlock

theorem branchHere : Goes E (.nearly b) g.branchHere := by
  unfold Grammar.branchHere
  refine goes_here.bind fun start => hg.condition.bind fun condition => hg.nextBlock.bind
    fun consequence => goes_nextIs.bind fun otherwise => ?_
  split
  · exact goes_advance.bind fun _ => hg.alternative.bind fun _ =>
      goes_spanFrom.bind fun _ => goes_pure
  · exact goes_spanFrom.bind fun _ => goes_pure

theorem whileHere : Goes E (.nearly b) g.whileHere := by
  unfold Grammar.whileHere
  exact goes_here.bind fun _ => hg.condition.bind fun _ => hg.nextBlock.bind fun _ =>
    goes_spanFrom.bind fun _ => goes_pure

/-- An operand that may be left out in front of a certain token. -/
theorem operandUnless (stop : Token.Kind) :
    Goes E (.nearly b) (g.operandUnless stop) := by
  unfold Grammar.operandUnless
  refine goes_nextIs.bind fun stops => ?_
  split
  · exact goes_pure
  · exact hg.operand.bind fun _ => goes_pure

/-- The first part of a counting loop stands at the current token, not behind it, so
this is about fewer pending tokens than elsewhere. -/
theorem countingStart : Goes E (.below b) g.countingStart := by
  unfold Grammar.countingStart
  refine goes_current.bind fun t => ?_
  split
  · exact goes_pure
  · exact (hg.binding false).below.bind fun _ => goes_expect.bind fun _ => goes_pure
  · exact (hg.binding true).below.bind fun _ => goes_expect.bind fun _ => goes_pure
  · exact (goes_expressionStatement (hg.expression .lowest)).bind fun _ => goes_expect.bind fun _ => goes_pure

/-- The names in front of the colon are taken before an expression is read. -/
theorem loopHeader : Goes E (.below b) g.loopHeader := by
  unfold Grammar.loopHeader
  refine goes_currentIs.bind fun named => goes_nextKind.bind fun following => ?_
  split
  · exact goes_nameHere.bind fun _ => goes_advance.bind fun _ =>
      hg.operand.below.bind fun _ => goes_expect.bind fun _ => goes_pure
  · split
    · exact goes_nameHere.bind fun _ => goes_advance.bind fun _ => goes_expect.bind
        fun _ => goes_nameHere.bind fun _ => goes_expect.bind fun _ =>
        hg.operand.below.bind fun _ => goes_expect.bind fun _ => goes_pure
    · exact hg.countingStart.bind fun _ => (hg.operandUnless .semicolon).below.bind
        fun _ => goes_expect.bind fun _ => (hg.operandUnless .rparen).below.bind
        fun _ => goes_expect.bind fun _ => goes_pure

theorem forHere : Goes E (.nearly b) g.forHere := by
  unfold Grammar.forHere
  refine goes_here.bind fun start => Goes.expect_bind (goes_advance.bind fun _ => ?_)
  exact hg.loopHeader.bind fun _ => hg.nextBlock.below.bind fun _ =>
    goes_spanFrom.bind fun _ => goes_pure

/-! ### Switches -/

/-- The values of a case set a flag for what is inside, which has no part in how far a
parser moves. -/
theorem caseHere : Goes E (.nearly b) g.caseHere := by
  unfold Grammar.caseHere
  exact goes_here.bind fun _ => hg.operand.commaList.inCaseValues.bind fun _ =>
    goes_skipColon.bind fun _ => hg.nextBlock.bind fun _ => goes_spanFrom.bind fun _ =>
    goes_pure

theorem defaultHere : Goes E (.nearly b) g.defaultHere := by
  unfold Grammar.defaultHere
  exact goes_skipColon.bind fun _ => hg.nextBlock

/-- A pass takes a case or the default, and either starts with a word. -/
theorem loops_casePass : Loops E (.nearly b) g.casePass := by
  rintro ⟨cases, default⟩ s hs hz
  unfold Grammar.casePass
  dsimp only
  rw [leads_current_bind]
  split
  · exact leads_pure trivial
  · next hcase =>
    refine (hg.caseHere s hs hz).bind fun c s' hforward _ => ?_
    exact leads_again (by rw [hcase]; decide) hforward
  · next hdefault =>
    refine (hg.defaultHere s hs hz).bind fun body s' hforward _ => ?_
    exact leads_again (by rw [hdefault]; decide) hforward
  · exact leads_unexpected
  · exact leads_unexpected

theorem switchHere : Goes E (.nearly b) g.switchHere := by
  rw [Grammar.switchHere_eq]
  exact goes_here.bind fun _ => hg.condition.bind fun _ => goes_expect.bind fun _ =>
    goes_advance.bind fun _ => (goes_repeated hg.loops_casePass _).bind fun _ =>
    goes_spanFrom.bind fun _ => goes_pure

/-! ### Operands -/

/-- Behind a comma there is an item, or the closing token if the comma was the last one.
-/
theorem loops_itemPass (close : Token.Kind) :
    Loops E (.nearly b) (g.itemPass close) := by
  intro items s hs hz
  unfold Grammar.itemPass
  refine leads_takeComma.bind fun taken s' hforward htaken => ?_
  split
  · next hcomma =>
    obtain ⟨rfl, hnext⟩ := htaken hcomma
    have hconsumes : s.Consumes s.advanced :=
      hs.consumes (.refl _) (by rw [s.advanced_current, hnext]; decide)
    rw [leads_nextIs_bind]
    split
    · exact leads_pure trivial
    · have hoperand := hg.operand s.advanced hs.advanced (Zone.stays _ hs hforward hz)
      refine hoperand.bind fun item s'' hforward' _ => leads_pure ?_
      exact ⟨hconsumes.not_eof, hforward'⟩
  · exact leads_pure trivial

theorem expressionList (close : Token.Kind) :
    Goes E (.nearly b) (g.expressionList close) := by
  rw [Grammar.expressionList_eq]
  refine goes_nextIs.bind fun none => ?_
  split
  · exact goes_advance.bind fun _ => goes_pure
  · exact hg.operand.bind fun _ => (goes_repeated (hg.loops_itemPass close) _).bind
      fun _ => goes_expect.bind fun _ => goes_pure

/-- A field starts with its name, so it moves on whatever its value is. -/
theorem field : Advances E (.nearly b) g.field := by
  unfold Grammar.field
  exact advances_expect.bind fun _ => goes_nameHere.bind fun _ => goes_expect.bind
    fun _ => hg.operand.bind fun _ => goes_pure

/-- An entry starts with its key. -/
theorem entry : Advances E (.nearly b) g.entry := by
  unfold Grammar.entry
  exact hg.advances_operand.bind fun _ => goes_expect.bind fun _ => hg.operand.bind
    fun _ => goes_pure

/-- Inside the values of a case a brace is not taken for a record. -/
theorem nameOrRecord : Goes E (.nearly b) g.nameOrRecord := by
  unfold Grammar.nameOrRecord
  refine goes_nameHere.bind fun name => goes_nextIs.bind fun brace =>
    goes_insideCase.bind fun inCase => ?_
  split
  · exact goes_pure
  · exact goes_advance.bind fun _ => (Goes.braceList hg.field).bind fun _ =>
      goes_spanFrom.bind fun _ => goes_pure

theorem mapHere : Goes E (.nearly b) g.mapHere := by
  unfold Grammar.mapHere
  exact goes_here.bind fun _ => (Goes.braceList hg.entry).bind fun _ =>
    goes_spanFrom.bind fun _ => goes_pure

theorem arrayHere : Goes E (.nearly b) g.arrayHere := by
  unfold Grammar.arrayHere
  exact goes_here.bind fun _ => (hg.expressionList .rbracket).bind fun _ =>
    goes_spanFrom.bind fun _ => goes_pure

/-- The operand of an operator stands behind it. -/
theorem unaryHere : Goes E (.nearly b) g.unaryHere := by
  unfold Grammar.unaryHere
  exact goes_here.bind fun _ => goes_current.bind fun _ =>
    Goes.advance_bind ((hg.expression .unary).bind fun _ => goes_pure)

theorem spreadHere : Goes E (.nearly b) g.spreadHere := by
  unfold Grammar.spreadHere
  exact goes_here.bind fun _ =>
    Goes.advance_bind ((hg.expression .unary).bind fun _ => goes_pure)

theorem arrowBody (params : List Name) (start : Location) :
    Goes E (.nearly b) (g.arrowBody params start) := by
  unfold Grammar.arrowBody
  exact hg.operand.bind fun _ => goes_pure

/-- A parenthesis opens the parameters of an arrow function or an expression, and which
one it is shows only a few tokens further on. -/
theorem groupHere : Goes E (.nearly b) g.groupHere := by
  rw [Grammar.groupHere_eq]
  refine goes_here.bind fun start => goes_nextIs.bind fun none => ?_
  split
  · exact goes_advance.bind fun _ => goes_expect.bind fun _ => hg.arrowBody [] start
  · refine Goes.advance_bind (goes_currentIs.bind fun named => goes_nextKind.bind
      fun following => ?_)
    split
    · exact goes_nameHere.bind fun first => (goes_repeated loops_namePass []).bind
        fun others => goes_expect.bind fun _ => goes_expect.bind fun _ =>
        (hg.arrowBody (first :: others) start).below
    · split
      · refine goes_nameHere.bind fun name => goes_advance.bind fun _ =>
          goes_nextIs.bind fun arrow => ?_
        split
        · exact goes_advance.bind fun _ => (hg.arrowBody [name] start).below
        · exact goes_pure
      · exact (hg.expression .lowest).bind fun _ => goes_expect.bind fun _ => goes_pure

theorem functionHere : Goes E (.nearly b) g.functionHere := by
  unfold Grammar.functionHere
  refine goes_here.bind fun start => Goes.bind ?_ fun name => ?_
  · refine goes_nextIs.bind fun named => ?_
    split
    · exact goes_advance.bind fun _ => goes_current.bind fun _ => goes_pure
    · exact goes_pure
  · exact goes_expect.bind fun _ => (hg.functionRest name start).bind fun _ => goes_pure

/-- Every operand starts with a token that says what it is. -/
theorem operandHere : Goes E (.nearly b) g.operandHere := by
  unfold Grammar.operandHere
  refine goes_current.bind fun t => goes_here.bind fun loc => ?_
  split
  case h_1 => exact hg.nameOrRecord
  case h_2 => exact goes_integerHere.bind fun _ => goes_pure
  case h_3 => exact goes_floatHere
  case h_4 | h_5 | h_6 => exact goes_pure
  case h_7 | h_8 | h_9 | h_10 => exact hg.unaryHere
  case h_11 => exact hg.groupHere
  case h_12 => exact hg.arrayHere
  case h_13 => exact hg.mapHere
  case h_14 => exact hg.branchHere
  case h_15 => exact hg.whileHere
  case h_16 => exact hg.forHere
  case h_17 => exact hg.switchHere
  case h_18 => exact hg.attempt.bind fun _ => goes_pure
  case h_19 => exact hg.functionHere
  case h_20 => exact hg.spreadHere
  case h_21 | h_22 => exact goes_fail
  case h_23 =>
    split
    · exact goes_nameHere.bind fun _ => goes_pure
    · exact goes_fail

/-! ### Operators -/

section

variable (left : Expr)

/-- The right side binds at least as tight as the operator asks for. -/
theorem binaryHere (op : BinaryOp) : Goes E (.nearly b) (g.binaryHere left op) := by
  unfold Grammar.binaryHere
  exact goes_current.bind fun _ =>
    Goes.advance_bind ((hg.expression _).bind fun _ => goes_pure)

theorem assignHere (op : AssignOp) : Goes E (.nearly b) (g.assignHere left op) := by
  unfold Grammar.assignHere
  exact hg.operand.bind fun _ => goes_pure

theorem rangeHere : Goes E (.nearly b) (g.rangeHere left) := by
  unfold Grammar.rangeHere
  exact Goes.advance_bind ((hg.expression .range).bind fun _ => goes_pure)

theorem ternaryHere : Goes E (.nearly b) (g.ternaryHere left) := by
  unfold Grammar.ternaryHere
  exact hg.operand.bind fun _ => goes_expect.bind fun _ => hg.operand.bind fun _ =>
    goes_pure

/-- The parameters have been read already, as an operand. -/
theorem arrowHere : Goes E (.nearly b) (g.arrowHere left) := by
  unfold Grammar.arrowHere
  split
  · exact hg.arrowBody _ _
  · exact goes_fail

theorem callHere : Goes E (.nearly b) (g.callHere left) := by
  unfold Grammar.callHere
  exact (hg.expressionList .rparen).bind fun _ => goes_spanFrom.bind fun _ => goes_pure

theorem sliceStop : Goes E (.nearly b) g.sliceStop := by
  unfold Grammar.sliceStop
  exact (hg.operandUnless .rbracket).bind fun _ => goes_expect.bind fun _ => goes_pure

/-- An index or a slice, by the colon. -/
theorem indexHere : Goes E (.nearly b) (g.indexHere left) := by
  unfold Grammar.indexHere
  refine goes_nextIs.bind fun colon => ?_
  split
  · exact goes_advance.bind fun _ => hg.sliceStop.bind fun _ => goes_spanFrom.bind
      fun _ => goes_pure
  · refine hg.operand.bind fun index => goes_nextIs.bind fun colon => ?_
    split
    · exact goes_advance.bind fun _ => hg.sliceStop.bind fun _ => goes_spanFrom.bind
        fun _ => goes_pure
    · exact goes_expect.bind fun _ => goes_spanFrom.bind fun _ => goes_pure

/-- The operator has been taken.  What does not operate leaves the operand as it is. -/
theorem operatorHere : Goes E (.nearly b) (g.operatorHere left) := by
  unfold Grammar.operatorHere
  refine goes_current.bind fun t => ?_
  dsimp only
  split
  · exact hg.binaryHere left _
  · exact hg.assignHere left _
  · exact hg.rangeHere left
  · exact hg.ternaryHere left
  · exact hg.arrowHere left
  · exact hg.callHere left
  · exact hg.indexHere left
  · exact goes_memberHere left
  · exact goes_stepHere left _
  · exact goes_stepHere left _
  · exact goes_pure

end

/-- A pass takes the operator that binds tighter, and the end of input does not bind. -/
theorem loops_operatorPass (precedence : Precedence) :
    Loops E (.nearly b) (g.operatorPass precedence) := by
  intro left s hs hz
  unfold Grammar.operatorPass
  rw [leads_nextKind_bind]
  split
  · next hbinds =>
    refine leads_advance_bind ?_
    have hoperator := hg.operatorHere left s.advanced hs.advanced
      (Zone.stays _ hs s.forward_advanced hz)
    refine hoperator.bind fun e s' hforward _ => leads_pure ⟨fun heof => ?_, hforward⟩
    -- the end of input is on the lowest rung
    rw [hs.next_eof heof] at hbinds
    exact absurd hbinds.2 (Nat.not_lt_zero _)
  · exact leads_pure trivial

/-- An operand and the operators behind it, one pass for each. -/
theorem expressionHere (precedence : Precedence) :
    Goes E (.nearly b) (g.expressionHere precedence) := by
  rw [Grammar.expressionHere_eq]
  exact hg.operandHere.bind fun first =>
    goes_repeated (hg.loops_operatorPass precedence) first

/-! ### Statements -/

section

/- A statement may be an expression that starts where the statement does, so it stands in
a zone of its own. -/
variable (hnearly : ∀ {α : Type} {p : Parser α}, Goes E (.nearly b) p → Goes E z p)
  (hexpression : Goes E z (g.expression .lowest))

include hnearly hexpression

/-- By the token that the statement starts with. -/
theorem statementBody : Goes E z g.statementBody := by
  unfold Grammar.statementBody
  refine goes_current.bind fun t => ?_
  split
  · exact hnearly (hg.binding false)
  · exact hnearly (hg.binding true)
  · exact hnearly hg.returning
  · exact goes_inclusion
  · exact (hnearly hg.attempt).bind fun _ => goes_pure
  · exact goes_structDeclaration
  · exact goes_enumDeclaration
  · exact goes_here.bind fun _ => goes_pure
  · exact goes_here.bind fun _ => goes_pure
  · exact goes_giveUp
  · refine goes_nextIs.bind fun function => ?_
    split
    · exact goes_expressionStatement hexpression
    · exact hnearly hg.definition
  · exact goes_expressionStatement hexpression

/-- A semicolon behind a statement is taken with it. -/
theorem statementHere : Goes E z g.statementHere := by
  unfold Grammar.statementHere
  refine (hg.statementBody hnearly hexpression).bind fun st => goes_nextIs.bind
    fun more => ?_
  split
  · exact goes_advance.bind fun _ => goes_pure
  · exact goes_pure

end

/-! ### Programs -/

/-- Statements follow one another to the end of input, with those left out that fail. -/
theorem loops_programPass : Loops E (.below b) g.programPass := by
  intro statements s hs hz
  unfold Grammar.programPass
  rw [leads_currentIs_bind]
  split
  · exact leads_pure trivial
  · next heof =>
    refine (hg.statement.optional s hs hz).bind fun statement s' hforward _ => ?_
    exact leads_again (by simpa using heof) hforward

end Grammar.Serves

end Parser

end Script
