import Script.Proofs.Syntax.Operators

/-!
# Reading operators

The expressions that are printed in parentheses, and calls and members.
-/

namespace Script

open Lexeme (sign word listed further)
open Node (inCaseAfter)
open Script.Parser

variable {n : Nat} {s : State} {b : Bool} {x : Lexeme} {r : List Lexeme}
  {loc : Location}

attribute [local simp] Expr.lexemes Expr.bare

/-! ### Which rule an operator leads to -/

namespace Parser.Grammar

variable {g : Grammar} {left : Expr} {R : Expr → State → Prop}

theorem runs_operatorHere_binary {op : BinaryOp}
    (hkind : s.current.kind = op.kind) :
    Runs (g.operatorHere left) s R ↔ Runs (g.binaryHere left op) s R := by
  unfold operatorHere
  rw [runs_current_bind, hkind]
  cases op <;> rfl

theorem runs_operatorHere_assign {op : AssignOp}
    (hkind : s.current.kind = op.kind) :
    Runs (g.operatorHere left) s R ↔ Runs (g.assignHere left op) s R := by
  unfold operatorHere
  rw [runs_current_bind, hkind]
  cases op <;> rfl

theorem runs_operatorHere_step {op : StepOp}
    (hkind : s.current.kind = op.kind) :
    Runs (g.operatorHere left) s R ↔ Runs (stepHere left op) s R := by
  unfold operatorHere
  rw [runs_current_bind, hkind]
  cases op <;> rfl

end Parser.Grammar

/-! ### Operators with two sides -/

theorem BinaryOp.level_kind (op : BinaryOp) :
    0 < (Precedence.ofKind op.kind).level ∧
      (Precedence.ofKind op.kind).level < Precedence.call.level := by
  cases op <;> decide

theorem Expr.reads_binary {left right : Expr} {op : BinaryOp}
    (hleft : left.Reads b)
    (hright : right.Reads (inCaseAfter b left.lexemes)) :
    (Expr.binary left op right loc).Reads b := by
  refine reads_of_operator (sign op.kind) (right.lexemes) hleft
    (by simp [Expr.lexemes]) ?_ ?_ ?_ op.level_kind.1 ?_
  · exact follows_of_endsOperand (by cases op <;> rfl)
  · cases op <;> simp [BinaryOp.kind]
  · cases op <;> simp [BinaryOp.kind]
  · intro n s left' x r hn hleft' hs
    rw [Grammar.runs_operatorHere_binary hs.current_sign]
    unfold Grammar.binaryHere
    rw [runs_current_bind, runs_advance_bind, hs.current_sign]
    cases n with
    | zero => omega
    | succ n =>
      have hnext := hs.faces.advanced_append hright.opens.ne_nil
      refine Runs.bind ((hright.comes (n := n) (by omega) op.level_kind.2 hnext
        (follows_of_endsOperand rfl)).runs (Nat.zero_le _)) ?_
      rintro right' s' ⟨hright', hfaces⟩
      rw [runs_pure_iff]
      refine ⟨by simp [Expr.bare, hleft', hright'], ?_⟩
      rwa [Node.inCaseAfter_sign (by cases op <;> simp [BinaryOp.kind])]

theorem Expr.reads_assign {target value : Expr} {op : AssignOp}
    (htarget : target.Reads b)
    (hvalue : value.Reads (inCaseAfter b target.lexemes)) :
    (Expr.assign target op value loc).Reads b := by
  refine reads_of_operator (sign op.kind) (value.lexemes) htarget
    (by simp [Expr.lexemes]) ?_ ?_ ?_ ?_ ?_
  · exact follows_of_endsOperand (by cases op <;> rfl)
  · cases op <;> simp [AssignOp.kind]
  · cases op <;> simp [AssignOp.kind]
  · cases op <;> decide
  · intro n s target' x r hn htarget' hs
    rw [Grammar.runs_operatorHere_assign hs.current_sign]
    unfold Grammar.assignHere
    refine Runs.bind (hvalue.operand hn (follows_of_endsOperand rfl) rfl s _
      hs.faces) ?_
    rintro value' s' ⟨hvalue', hfaces⟩
    rw [runs_pure_iff]
    refine ⟨by simp [Expr.bare, htarget', hvalue'], ?_⟩
    rwa [Node.inCaseAfter_sign (by cases op <;> simp [AssignOp.kind])]

theorem Expr.reads_range {start stop : Expr} (hstart : start.Reads b)
    (hstop : stop.Reads (inCaseAfter b start.lexemes)) :
    (Expr.range start stop loc).Reads b := by
  refine reads_of_operator (sign .range) (stop.lexemes) hstart
    (by simp [Expr.lexemes]) (follows_of_endsOperand rfl) (by simp) (by simp)
    (by decide) ?_
  intro n s start' x r hn hstart' hs
  unfold Grammar.operatorHere
  rw [runs_current_bind, hs.current_sign]
  change Runs (Grammar.rangeHere _ _) _ _
  unfold Grammar.rangeHere
  rw [runs_advance_bind]
  cases n with
  | zero => omega
  | succ n =>
    have hnext := hs.faces.advanced_append hstop.opens.ne_nil
    refine Runs.bind ((hstop.comes (n := n) (by omega)
      (by decide) hnext (follows_of_endsOperand rfl)).runs (Nat.zero_le _)) ?_
    rintro stop' s' ⟨hstop', hfaces⟩
    rw [runs_pure_iff]
    refine ⟨by simp [Expr.bare, hstart', hstop'], ?_⟩
    rwa [Node.inCaseAfter_sign (by simp)]

theorem Expr.reads_ternary {condition consequence alternative : Expr}
    (hcondition : condition.Reads b)
    (hconsequence : consequence.Reads (inCaseAfter b condition.lexemes))
    (halternative : alternative.Reads
      (inCaseAfter (inCaseAfter b condition.lexemes) consequence.lexemes)) :
    (Expr.ternary condition consequence alternative loc).Reads b := by
  refine reads_of_operator (sign .question)
    (consequence.lexemes ++ sign .colon :: alternative.lexemes) hcondition
    (by simp [Expr.lexemes]) (follows_of_endsOperand rfl) (by simp) (by simp)
    (by decide) ?_
  intro n s condition' x r hn hcondition' hs
  simp only [List.length_append, List.length_cons] at hn
  rw [List.append_assoc, List.cons_append] at hs
  unfold Grammar.operatorHere
  rw [runs_current_bind, hs.current_sign]
  change Runs (Grammar.ternaryHere _ _) _ _
  unfold Grammar.ternaryHere
  refine Runs.bind (hconsequence.operand (by omega)
    (follows_of_endsOperand rfl) rfl s _ hs.faces) ?_
  rintro consequence' s' ⟨hconsequence', hfaces⟩
  rw [runs_expect_bind hfaces.next_sign]
  refine Runs.bind (halternative.operand (by omega)
    (follows_of_endsOperand rfl) rfl _ _ (hfaces.step (by simp))) ?_
  rintro alternative' s'' ⟨halternative', hfaces'⟩
  rw [runs_pure_iff]
  refine ⟨by simp [Expr.bare, hcondition', hconsequence', halternative'], ?_⟩
  rwa [Node.inCaseAfter_sign (by simp), Node.inCaseAfter_append,
    Node.inCaseAfter_sign (by simp)]

/-! ### Operators behind their operand -/

theorem Expr.reads_step {op : StepOp} {target : Expr} (htarget : target.Reads b)
    (hspread : target.isSpread = false) :
    (Expr.step op target loc).Reads b := by
  refine reads_of_operator (sign op.kind) ([]) htarget
    (by simp [Expr.lexemes]) ?_ ?_ ?_ ?_ ?_
  · cases op <;> exact follows_of_not_spread hspread (by simp [StepOp.kind])
      (by simp [StepOp.kind]) (by simp [StepOp.kind])
  · cases op <;> simp [StepOp.kind]
  · cases op <;> simp [StepOp.kind]
  · cases op <;> decide
  · intro n s target' x r hn htarget' hs
    rw [Grammar.runs_operatorHere_step hs.current_sign]
    unfold Grammar.stepHere
    rw [runs_spanFrom_bind, runs_pure_iff]
    refine ⟨by simp [Expr.bare, htarget'], ?_⟩
    rw [Node.inCaseAfter_sign (by cases op <;> simp [StepOp.kind]),
      Node.inCaseAfter_nil]
    exact hs.faces

/-- No expression starts with a colon. -/
theorem Expr.Reads.first_ne_colon {e : Expr} (h : e.Reads b) {rest : List Lexeme}
    (hs : s.Faces b (e.lexemes ++ rest)) : s.next.kind ≠ .colon := by
  obtain ⟨l, ls, hl, hkind⟩ := h.opens.first_ne .colon rfl
  rw [hl, List.cons_append] at hs
  rw [hs.next_kind]
  exact hkind

theorem Expr.reads_index {left index : Expr} (hleft : left.Reads b)
    (hspread : left.isSpread = false)
    (hindex : index.Reads (inCaseAfter b left.lexemes)) :
    (Expr.index left index loc).Reads b := by
  refine reads_of_operator (sign .lbracket)
    (index.lexemes ++ [sign .rbracket]) hleft (by simp [Expr.lexemes])
    (follows_of_not_spread hspread (by simp) (by simp) (by simp)) (by simp)
    (by simp) (by decide) ?_
  intro n s left' x r hn hleft' hs
  simp only [List.length_append, List.length_cons, List.length_nil] at hn
  rw [List.append_assoc] at hs
  unfold Grammar.operatorHere
  rw [runs_current_bind, hs.current_sign]
  change Runs (Grammar.indexHere _ _) _ _
  unfold Grammar.indexHere
  rw [runs_nextIs_bind,
    if_neg (by simpa using hindex.first_ne_colon hs.faces)]
  refine Runs.bind (hindex.operand (by omega) (follows_of_endsOperand rfl) rfl
    s _ hs.faces) ?_
  rintro index' s' ⟨hindex', hfaces⟩
  have hnext : s'.next.kind = .rbracket := hfaces.next_kind
  rw [runs_nextIs_bind, hnext, if_neg (by decide), runs_expect_bind hnext,
    runs_spanFrom_bind, runs_pure_iff]
  refine ⟨by simp [Expr.bare, hleft', hindex'], ?_⟩
  simpa using hfaces.step (by simp)

/-- An expression behind the current token, unless `stop` comes first. -/
theorem Parser.runs_operandUnless {e : Option Expr} {stop : Token.Kind}
    (hstart : stop.startsOperand = false) (hends : stop.endsOperand = true)
    (hlevel : (Precedence.ofKind stop).level = 0) (he : ∀ e' ∈ e, e'.Reads b)
    (hn : 2 * (optionLexemes e).length < n)
    (hs : s.Faces b (optionLexemes e ++ sign stop :: r)) :
    Runs ((grammar n).operandUnless stop) s fun e' s' =>
      e'.map Expr.bare = e.map Expr.bare ∧
      s'.Faces (inCaseAfter b (optionLexemes e)) (sign stop :: r) := by
  unfold Grammar.operandUnless
  rw [runs_nextIs_bind]
  cases e with
  | none =>
    have hnext : s.next.kind = stop := hs.next_kind
    rw [hnext, if_pos (by simp), runs_pure_iff]
    exact ⟨rfl, by simpa [optionLexemes] using hs⟩
  | some e =>
    have hreads := he e rfl
    have hnext : s.next.kind ≠ stop := by
      obtain ⟨l, ls, hl, hkind⟩ := hreads.opens.first_ne _ hstart
      rw [optionLexemes, hl, List.cons_append] at hs
      rw [hs.next_kind]
      exact hkind
    rw [if_neg (by simpa using hnext)]
    refine Runs.bind (hreads.operand hn (Expr.follows_of_endsOperand hends)
      hlevel s _ hs) ?_
    rintro e' s' ⟨he', hfaces⟩
    rw [runs_pure_iff]
    exact ⟨by simp [he'], hfaces⟩

/-- The end of a slice. -/
theorem Parser.runs_sliceStop {stop : Option Expr}
    (hstop : ∀ e ∈ stop, e.Reads b)
    (hn : 2 * (optionLexemes stop).length < n)
    (hs : s.Faces b (optionLexemes stop ++ sign .rbracket :: x :: r)) :
    Runs (grammar n).sliceStop s fun stop' s' =>
      stop'.map Expr.bare = stop.map Expr.bare ∧
      s'.Faces (inCaseAfter b (optionLexemes stop)) (x :: r) := by
  unfold Grammar.sliceStop
  refine Runs.bind (runs_operandUnless rfl rfl rfl hstop hn hs) ?_
  rintro stop' s' ⟨hstop', hfaces⟩
  rw [runs_expect_bind hfaces.next_sign, runs_pure_iff]
  exact ⟨hstop', hfaces.step (by simp)⟩

theorem Expr.reads_slice {left : Expr} {start stop : Option Expr}
    (hleft : left.Reads b) (hspread : left.isSpread = false)
    (hstart : ∀ e ∈ start, e.Reads (inCaseAfter b left.lexemes))
    (hstop : ∀ e ∈ stop, e.Reads
      (inCaseAfter (inCaseAfter b left.lexemes) (optionLexemes start))) :
    (Expr.slice left start stop loc).Reads b := by
  refine reads_of_operator (sign .lbracket)
    (optionLexemes start ++ sign .colon ::
      (optionLexemes stop ++ [sign .rbracket])) hleft (by simp [Expr.lexemes])
    (follows_of_not_spread hspread (by simp) (by simp) (by simp)) (by simp)
    (by simp) (by decide) ?_
  intro n s left' x r hn hleft' hs
  simp only [List.length_append, List.length_cons, List.length_nil] at hn
  simp only [List.append_assoc, List.cons_append, List.nil_append] at hs
  unfold Grammar.operatorHere
  rw [runs_current_bind, hs.current_sign]
  change Runs (Grammar.indexHere _ _) _ _
  unfold Grammar.indexHere
  rw [runs_nextIs_bind]
  cases start with
  | none =>
    simp only [optionLexemes, List.nil_append, Node.inCaseAfter_nil] at hs hstop
    have hnext : s.next.kind = .colon := hs.faces.next_kind
    rw [hnext, if_pos (by rfl), runs_advance_bind]
    refine Runs.bind (runs_sliceStop hstop (by omega)
      (hs.faces.step (by simp))) ?_
    rintro stop' s' ⟨hstop', hfaces⟩
    rw [runs_spanFrom_bind, runs_pure_iff]
    refine ⟨by simp [Expr.bare, hleft', hstop', bareExpr?_eq_map], ?_⟩
    simpa [optionLexemes] using hfaces
  | some e =>
    have he := hstart e rfl
    rw [if_neg (by simpa using he.first_ne_colon hs.faces)]
    simp only [optionLexemes] at hn hs hstop
    refine Runs.bind (he.operand (by omega) (follows_of_endsOperand rfl) rfl
      s _ hs.faces) ?_
    rintro e' s' ⟨he', hfaces⟩
    have hnext : s'.next.kind = .colon := hfaces.next_kind
    rw [runs_nextIs_bind, hnext, if_pos (by rfl), runs_advance_bind]
    refine Runs.bind (runs_sliceStop hstop (by omega)
      (hfaces.step (by simp))) ?_
    rintro stop' s'' ⟨hstop', hfaces'⟩
    rw [runs_spanFrom_bind, runs_pure_iff]
    refine ⟨by simp [Expr.bare, hleft', he', hstop', bareExpr?_eq_map], ?_⟩
    simpa [optionLexemes] using hfaces'

/-! ### Operators in front of their operand -/

/-- An operator in front of its operand, as it stands in parentheses. -/
theorem Parser.runs_unaryHere {op : PrefixOp} {right : Expr}
    (hright : right.Reads b) (hn : 2 * right.lexemes.length < n)
    (hs : s.Views b (sign op.kind :: (right.lexemes ++ sign .rparen :: r))) :
    Runs (grammar n).operandHere s fun e' s' =>
      e'.bare = (Expr.unary op right loc).bare ∧
      s'.Faces (inCaseAfter b right.lexemes) (sign .rparen :: r) := by
  have hunary : Runs (grammar n).unaryHere s fun e' s' =>
      e'.bare = (Expr.unary op right loc).bare ∧
      s'.Faces (inCaseAfter b right.lexemes) (sign .rparen :: r) := by
    cases n with
    | zero => omega
    | succ n =>
      have hnext := hs.faces.advanced_append hright.opens.ne_nil
      unfold Grammar.unaryHere
      rw [runs_here_bind, runs_current_bind, runs_advance_bind, hs.current_sign]
      refine Runs.bind ((hright.comes (n := n) (by omega)
        (by decide) hnext (Expr.follows_of_endsOperand rfl)).runs
        (Nat.zero_le _)) ?_
      rintro right' s' ⟨hright', hfaces⟩
      rw [runs_pure_iff]
      refine ⟨?_, hfaces⟩
      cases op <;> simp [Expr.bare, hright', PrefixOp.kind, prefixOp]
  unfold Grammar.operandHere
  rw [runs_current_bind, runs_here_bind, hs.current_sign]
  cases op <;> exact hunary

theorem Expr.reads_unary {op : PrefixOp} {right : Expr} (hright : right.Reads b) :
    (Expr.unary op right loc).Reads b := by
  refine reads_of_operandHere (opens_of_kind rfl (by simp)) ?_
  intro n s x r hn hs _
  simp only [Expr.lexemes, List.cons_append, List.append_assoc,
    List.nil_append, List.length_cons, List.length_append,
    List.length_nil] at hn hs ⊢
  have hafter : inCaseAfter b
      (sign .lparen :: sign op.kind :: (right.lexemes ++ [sign .rparen])) =
      inCaseAfter b right.lexemes := by
    cases op <;> simp [PrefixOp.kind]
  rw [hafter]
  refine runs_group ?_ (by simp) ?_ hs fun s' hs' => ?_
  · cases op <;> simp [PrefixOp.kind]
  · cases op <;> simp [PrefixOp.kind]
  · cases n with
    | zero => omega
    | succ n =>
      exact (comes_of_operandHere (runs_unaryHere hright (by omega) hs')).runs
        (Nat.zero_le _)

theorem Expr.reads_spread {value : Expr} (hvalue : value.Reads b) :
    (Expr.spread value loc).Reads b := by
  refine reads_of_operandHere (opens_of_kind rfl (by simp)) ?_
  intro n s x r hn hs hfollows
  simp only [Expr.lexemes, List.cons_append, List.length_cons] at hn hs ⊢
  rw [Node.inCaseAfter_sign (by simp)]
  unfold Grammar.operandHere
  rw [runs_current_bind, runs_here_bind, hs.current_sign]
  change Runs (grammar n).spreadHere _ _
  unfold Grammar.spreadHere
  rw [runs_here_bind, runs_advance_bind]
  cases n with
  | zero => omega
  | succ n =>
    have hnext := hs.faces.advanced_append hvalue.opens.ne_nil
    -- What follows the spread follows its value, too.
    have hfollows' : value.Follows b x :=
      ⟨hfollows.not_else, hfollows.not_catch, fun _ => hfollows.spread rfl,
        hfollows.name⟩
    refine Runs.bind ((hvalue.comes (n := n) (by omega)
      (by decide) hnext hfollows').runs (hfollows.spread rfl)) ?_
    rintro value' s' ⟨hvalue', hfaces⟩
    rw [runs_pure_iff]
    exact ⟨by simp [Expr.bare, hvalue'], hfaces⟩

/-! ### Members and calls -/

theorem Expr.reads_member {object : Expr} {property : Name}
    (hobject : object.Reads b) (hspread : object.isSpread = false)
    (hproperty : Syntax.isTerm property.text = true) :
    (Expr.member object property loc).Reads b where
  opens := by
    rw [Expr.lexemes]
    exact hobject.opens.append ⟨by simp, by simp, by simp⟩
  comes := by
    intro n precedence s x r hn hprecedence hs hfollows
    simp only [Expr.lexemes, List.append_assoc, List.cons_append,
      List.nil_append, List.length_append, List.length_cons,
      List.length_nil] at hn hs ⊢
    have hkind := Syntax.kind_word_of_isTerm hproperty
    have hcomes := hobject.comes (n := n) (by omega) hprecedence hs
      (follows_of_not_spread hspread (by simp) (by simp) (by simp))
    have hafter : inCaseAfter (inCaseAfter b object.lexemes)
        [sign .dot, property.lexeme] = inCaseAfter b object.lexemes := by
      rw [Node.inCaseAfter_sign (by simp), Node.inCaseAfter_cons,
        Node.inCaseAfter_nil]
      exact Syntax.kind_word_ne hproperty (by simp) rfl
    rw [Node.inCaseAfter_append, hafter]
    refine hcomes.then_operator (r := r) ?_ (by simp)
      (Nat.lt_trans hprecedence (by decide)) ?_
    · simp only [List.length_cons]
      omega
    intro object' s' hobject' hs'
    have hproperty' := hs'.faces.advanced (by simp)
    have hnext : s'.next.kind = .ident ∨ s'.next.kind.isType = true := by
      rw [hs'.next_kind]
      exact hkind
    unfold Grammar.operatorHere
    rw [runs_current_bind, hs'.current_sign]
    change Runs (Grammar.memberHere _) _ _
    unfold Grammar.memberHere
    rw [runs_nextKind_bind, if_pos hnext, runs_advance_bind,
      runs_nameHere_bind, runs_pure_iff]
    refine ⟨?_, hproperty'.faces⟩
    simp [Expr.bare, hobject', hproperty'.current_text, Name.bare, Name.lexeme]

/-- Expressions that are read one after another. -/
def Expr.ReadsAll : Bool → List Expr → Prop
  | _, [] => True
  | b, e :: es => e.Reads b ∧ ReadsAll (inCaseAfter b e.lexemes) es

theorem Expr.ReadsAll.opens {es : List Expr} (h : ReadsAll b es) :
    ∀ e ∈ es, Opens e.lexemes := by
  induction es generalizing b with
  | nil => simp
  | cons e es ih =>
    intro e' he'
    rcases List.mem_cons.mp he' with rfl | hmem
    · exact h.1.opens
    · exact ih h.2 e' hmem

/-- The expressions of a list, each up to a comma.  The mode in which the last
one is read is on if it still is on behind the list. -/
theorem Expr.ReadsAll.each {es : List Expr} {N : Nat} (h : ReadsAll b es)
    (hn : ∀ e ∈ es, 2 * e.lexemes.length < N)
    (hx : ∀ e ∈ es.getLast?, ∀ b', (b' = false →
      inCaseAfter b (listed (es.map Expr.lexemes)) = false) → e.Follows b' x)
    (hlevel : (Precedence.ofKind x.kind).level = 0) :
    ReadsEach (grammar N).operand Expr.bare Expr.lexemes Expr.bare x b es := by
  induction es generalizing b with
  | nil => trivial
  | cons e es ih =>
    have he := h.1
    have hne := hn e List.mem_cons_self
    cases es with
    | nil =>
      refine he.operand hne (hx e rfl b ?_) hlevel
      rintro rfl
      rfl
    | cons e' es =>
      refine ⟨he.operand hne (follows_of_endsOperand rfl) rfl, ih h.2
        (fun d hd => hn d (List.mem_cons_of_mem e hd)) fun d hd b' hb' => ?_⟩
      refine hx d (by simpa using hd) b' fun hfalse => ?_
      rw [inCaseAfter_listed_cons]
      exact hb' hfalse

theorem exprsLexemes_eq_map (es : List Expr) :
    exprsLexemes es = es.map Expr.lexemes := by
  induction es with
  | nil => rfl
  | cons e es ih => rw [exprsLexemes, ih, List.map_cons]

/-- An item of a list is not longer than the list. -/
theorem Lexeme.length_le_listed {item : List Lexeme}
    {items : List (List Lexeme)} (hitem : item ∈ items) :
    item.length ≤ (listed items).length := by
  have hfurther : ∀ items, item ∈ items → item.length ≤ (further items).length := by
    intro items
    induction items with
    | nil => simp
    | cons first items ih =>
      intro hitem
      simp only [further, List.length_append, List.length_cons]
      rcases List.mem_cons.mp hitem with rfl | hmem
      · omega
      · have := ih hmem
        omega
  cases items with
  | nil => simp at hitem
  | cons first items =>
    simp only [listed, List.length_append]
    rcases List.mem_cons.mp hitem with rfl | hmem
    · omega
    · have := hfurther items hmem
      omega

/-- Expressions in brackets, behind the opening one. -/
theorem Expr.ReadsAll.runs_expressionList {es : List Expr} {N : Nat}
    {close : Token.Kind} (h : ReadsAll b es) (hstart : close.startsOperand = false)
    (hclose : close.endsOperand = true) (hcomma : close ≠ .comma)
    (hlevel : (Precedence.ofKind close).level = 0)
    (hN : 2 * (listed (exprsLexemes es)).length < N)
    (hs : s.Faces b (listed (exprsLexemes es) ++ sign close :: x :: r)) :
    Runs ((grammar N).expressionList close) s fun es' s' =>
      bareExprs es' = bareExprs es ∧
      s'.Faces (inCaseAfter b (listed (exprsLexemes es))) (x :: r) := by
  rw [exprsLexemes_eq_map] at hN hs ⊢
  have heach : ReadsEach (grammar N).operand Expr.bare Expr.lexemes Expr.bare
      (sign close) b es := by
    refine h.each (fun e he => ?_)
      (fun e _ b' _ => follows_of_endsOperand hclose) hlevel
    have hlength : e.lexemes.length ≤ (listed (es.map Expr.lexemes)).length :=
      Lexeme.length_le_listed (List.mem_map_of_mem he)
    omega
  refine (Parser.runs_expressionList hcomma ?_ heach hs).mono ?_
  · exact fun e he => (h.opens e he).first_ne _ hstart
  · rintro es' s' ⟨hes, hfaces⟩
    exact ⟨by rw [bareExprs_eq_map, bareExprs_eq_map, hes], hfaces⟩

theorem Expr.reads_call {callee : Expr} {args : List Expr}
    (hcallee : callee.Reads b) (hspread : callee.isSpread = false)
    (hargs : ReadsAll (inCaseAfter b callee.lexemes) args) :
    (Expr.call callee args loc).Reads b where
  opens := by
    rw [Expr.lexemes, List.append_assoc]
    exact hcallee.opens.append ⟨by simp, by simp, by simp⟩
  comes := by
    intro n precedence s x r hn hprecedence hs hfollows
    simp only [Expr.lexemes, List.append_assoc, List.cons_append,
      List.nil_append, List.length_append, List.length_cons,
      List.length_nil] at hn hs ⊢
    have hcomes := hcallee.comes (n := n) (by omega) hprecedence hs
      (follows_of_not_spread hspread (by simp) (by simp) (by simp))
    have hafter : inCaseAfter (inCaseAfter b callee.lexemes)
        (sign .lparen :: (listed (exprsLexemes args) ++ [sign .rparen])) =
        inCaseAfter (inCaseAfter b callee.lexemes)
          (listed (exprsLexemes args)) := by
      simp
    rw [Node.inCaseAfter_append, hafter]
    refine hcomes.then_operator (r := r) ?_ (by simp) hprecedence ?_
    · simp only [List.length_append, List.length_cons]
      omega
    · intro callee' s' hcallee' hs'
      unfold Grammar.operatorHere
      rw [runs_current_bind, hs'.current_sign]
      change Runs (Grammar.callHere _ _) _ _
      unfold Grammar.callHere
      refine Runs.bind (hargs.runs_expressionList rfl rfl (by simp) rfl
        (by omega) hs'.faces) ?_
      rintro args' s'' ⟨hargs', hfaces⟩
      rw [runs_spanFrom_bind, runs_pure_iff]
      exact ⟨by simp [Expr.bare, hcallee', hargs'], hfaces⟩

theorem Expr.reads_array {elements : List Expr} (helements : ReadsAll b elements) :
    (Expr.array elements loc).Reads b := by
  refine reads_of_operandHere (opens_of_kind rfl (by simp)) ?_
  intro n s x r hn hs _
  simp only [Expr.lexemes, List.append_assoc, List.cons_append,
    List.nil_append, List.length_append, List.length_cons,
    List.length_nil] at hn hs ⊢
  unfold Grammar.operandHere
  rw [runs_current_bind, runs_here_bind, hs.current_sign]
  change Runs (grammar n).arrayHere _ _
  unfold Grammar.arrayHere
  rw [runs_here_bind]
  refine Runs.bind (helements.runs_expressionList rfl rfl (by simp) rfl
    (by omega) hs.faces) ?_
  rintro elements' s' ⟨helements', hfaces⟩
  rw [runs_spanFrom_bind, runs_pure_iff]
  exact ⟨by simp [Expr.bare, helements'], by simpa using hfaces⟩

/-! ### Arrow functions -/

theorem Name.bare_mk {name : Name} {text : String} (htext : text = name.text)
    (loc : Location) : Name.bare { text, loc } = name.bare := by
  rw [htext]
  rfl

theorem Node.inCaseAfter_names {names : List Name}
    (hnames : names.all Name.isIdentifier = true) :
    inCaseAfter b (listed (names.map fun n => [n.lexeme])) = b := by
  induction names with
  | nil => exact inCaseAfter_nil
  | cons name names ih =>
    rw [List.all_cons, Bool.and_eq_true] at hnames
    rw [List.map_cons, listed, inCaseAfter_append, inCaseAfter_further,
      inCaseAfter_cons (by rw [Name.kind_lexeme hnames.1]; simp),
      inCaseAfter_nil, ih hnames.2]

/-- The parameters behind the first one. -/
theorem Parser.runs_arrowNames_from {names read : List Name}
    {fuel : List Token} (hnames : names.all Name.isIdentifier = true)
    (hx : x.kind ≠ .comma)
    (hs : s.Faces b (further (names.map fun n => [n.lexeme]) ++ x :: r))
    (hfuel : s.ahead.length ≤ fuel.length) :
    Runs (iterate Grammar.namePass fuel read) s fun names' s' =>
      names'.map Name.bare =
        (read.map Name.bare).reverse ++ names.map Name.bare ∧
      s'.Faces b (x :: r) := by
  induction names generalizing s read fuel with
  | nil =>
    refine runs_iterate_done hfuel ?_
    unfold Grammar.namePass
    rw [runs_takeComma_bind_other (by rw [hs.next_kind]; exact hx),
      if_neg Bool.false_ne_true, runs_pure_iff]
    exact ⟨_, rfl, by simp, hs⟩
  | cons name names ih =>
    rw [List.all_cons, Bool.and_eq_true] at hnames
    simp only [List.map_cons, further, List.cons_append,
      List.nil_append] at hs
    have hident := hs.step (by simp)
    have hname := hident.advanced (by simp)
    refine runs_iterate_again hfuel ?_
    unfold Grammar.namePass
    rw [runs_takeComma_bind hs.next_sign, if_pos rfl,
      runs_expect_bind (by rw [hident.next_kind, Name.kind_lexeme hnames.1]),
      runs_nameHere_bind, runs_pure_iff]
    refine ⟨_, rfl, ?_, fun fuel' hfuel' => ?_⟩
    · rw [hname.faces.ahead, hs.ahead]
      simp only [List.length_cons]
      omega
    · refine (ih hnames.2 hname.faces hfuel').mono ?_
      rintro names' s' ⟨hnames', hfaces⟩
      refine ⟨?_, hfaces⟩
      rw [hnames', List.map_cons, List.map_cons, List.reverse_cons,
        List.append_assoc, Name.bare_mk hname.current_text]
      rfl

theorem Parser.runs_arrowBody {params params' : List Name} {body : Expr}
    {start : Location} (hbody : body.Reads b)
    (hn : 2 * body.lexemes.length < n)
    (hparams : params'.map Name.bare = params.map Name.bare)
    (hs : s.Faces b (body.lexemes ++ sign .rparen :: r)) :
    Runs ((grammar n).arrowBody params' start) s fun e' s' =>
      e'.bare = (Expr.arrow params body loc).bare ∧
      s'.Faces (inCaseAfter b body.lexemes) (sign .rparen :: r) := by
  unfold Grammar.arrowBody
  refine Runs.bind (hbody.operand hn (Expr.follows_of_endsOperand rfl) rfl s _
    hs) ?_
  rintro body' s' ⟨hbody', hfaces⟩
  rw [runs_pure_iff]
  exact ⟨by simp [Expr.bare, hbody', hparams], hfaces⟩

/-- Parameters in parentheses, an arrow and a body. -/
theorem Parser.runs_arrow {params : List Name} {body : Expr}
    (hparams : params.all Name.isIdentifier = true) (hbody : body.Reads b)
    (hn : 2 * body.lexemes.length < n)
    (hs : s.Views b (sign .lparen ::
      (listed (params.map fun n => [n.lexeme]) ++ sign .rparen ::
        sign .fatArrow :: (body.lexemes ++ sign .rparen :: r)))) :
    Runs (grammar n).operandHere s fun e' s' =>
      e'.bare = (Expr.arrow params body loc).bare ∧
      s'.Faces (inCaseAfter b body.lexemes) (sign .rparen :: r) := by
  unfold Grammar.operandHere
  rw [runs_current_bind, runs_here_bind, hs.current_sign]
  change Runs (grammar n).groupHere _ _
  unfold Grammar.groupHere
  rw [runs_here_bind, runs_nextIs_bind]
  match params with
  | [] =>
    have hclose : s.next.kind = .rparen := hs.faces.next_kind
    have harrow := hs.faces.step (by simp)
    rw [hclose, if_pos (by rfl), runs_advance_bind,
      runs_expect_bind harrow.next_sign]
    exact runs_arrowBody hbody hn rfl (harrow.step (by simp))
  | [name] =>
    rw [List.all_cons, Bool.and_eq_true] at hparams
    simp only [List.map_cons, List.map_nil, listed, further, List.append_nil,
      List.cons_append, List.nil_append] at hs
    have hident := Name.kind_lexeme hparams.1
    have hname := hs.faces.advanced (by simp)
    have hnext : s.advanced.next.kind = .rparen := hname.next_kind
    have hcurrent : s.advanced.current.kind = .ident :=
      hname.current_kind.trans hident
    have harrow := hname.faces.step (by simp)
    have hfat : s.advanced.advanced.next.kind = .fatArrow := harrow.next_kind
    rw [if_neg (by rw [hs.next_kind, hident]; decide), runs_advance_bind,
      runs_currentIs_bind, runs_nextKind_bind, hcurrent, hnext,
      if_neg (by simp), if_pos (by simp), runs_nameHere_bind,
      runs_advance_bind, runs_nextIs_bind, hfat, if_pos (by rfl),
      runs_advance_bind]
    refine runs_arrowBody hbody hn ?_ (harrow.step (by simp))
    simp [Name.bare_mk hname.current_text]
  | name :: second :: others =>
    rw [List.all_cons, Bool.and_eq_true] at hparams
    simp only [List.map_cons, listed, List.cons_append, List.nil_append] at hs
    have hident := Name.kind_lexeme hparams.1
    have hname := hs.faces.advanced (by simp [further])
    have hnext : s.advanced.next.kind = .comma := hname.next_kind
    have hcurrent : s.advanced.current.kind = .ident :=
      hname.current_kind.trans hident
    rw [if_neg (by rw [hs.next_kind, hident]; decide), runs_advance_bind,
      runs_currentIs_bind, runs_nextKind_bind, hcurrent, hnext,
      if_pos (by simp), runs_nameHere_bind]
    refine Runs.bind (runs_repeated fun fuel hfuel =>
      runs_arrowNames_from (x := sign .rparen)
        hparams.2 (by simp) hname.faces hfuel) ?_
    rintro names' s' ⟨hnames', hfaces⟩
    have harrow := hfaces.step (by simp)
    rw [runs_expect_bind hfaces.next_sign, runs_expect_bind harrow.next_sign]
    refine runs_arrowBody hbody hn ?_ (harrow.step (by simp))
    rw [List.map_cons, hnames', Name.bare_mk hname.current_text]
    rfl

/-- The parameters of an arrow that are all names. -/
theorem Expr.reads_arrow_names {params : List Name} {body : Expr}
    (hparams : params.all Name.isIdentifier = true) (hbody : body.Reads b) :
    (Expr.arrow params body loc).Reads b := by
  refine reads_of_operandHere (opens_of_kind rfl (by simp)) ?_
  intro n s x r hn hs _
  simp only [Expr.lexemes, List.append_assoc, List.cons_append,
    List.nil_append, List.length_append, List.length_cons,
    List.length_nil] at hn hs ⊢
  have hafter : inCaseAfter b (sign .lparen :: sign .lparen ::
      (listed (params.map fun n => [n.lexeme]) ++ sign .rparen ::
        sign .fatArrow :: (body.lexemes ++ [sign .rparen]))) =
      inCaseAfter b body.lexemes := by
    simp [Node.inCaseAfter_names hparams]
  rw [hafter]
  refine runs_group (by simp) (by simp) (by simp) hs fun s' hs' => ?_
  cases n with
  | zero => omega
  | succ n =>
    exact (comes_of_operandHere (runs_arrow hparams hbody (by omega)
      hs')).runs (Nat.zero_le _)

/-- A word for a type in parentheses is an operand, and the arrow an operator
behind it. -/
theorem Expr.reads_arrow_type {param : Name} {body : Expr}
    (hparam : Syntax.isTypeWord param.text = true)
    (hname : (Expr.name param).Reads b) (hbody : body.Reads b) :
    (Expr.arrow [param] body loc).Reads b := by
  have htype : param.lexeme.kind.isType = true :=
    Syntax.isType_word_of_isTypeWord hparam
  have hkind : ∀ {kind : Token.Kind}, kind.isType = false →
      param.lexeme.kind ≠ kind := by
    rintro kind hkind rfl
    exact absurd (hkind.symm.trans htype) Bool.false_ne_true
  refine reads_of_operandHere (opens_of_kind rfl (by simp)) ?_
  intro n s x r hn hs _
  simp only [Expr.lexemes, List.map_cons, List.map_nil, listed, further,
    List.append_nil, List.append_assoc, List.cons_append, List.nil_append,
    List.length_append, List.length_cons, List.length_nil] at hn hs ⊢
  have hafter : inCaseAfter b (sign .lparen :: sign .lparen :: param.lexeme ::
      sign .rparen :: sign .fatArrow :: (body.lexemes ++ [sign .rparen])) =
      inCaseAfter b body.lexemes := by
    simp [Node.inCaseAfter_cons (hkind rfl)]
  rw [hafter]
  refine runs_group (by simp) (by simp) (by simp) hs fun s' hs' => ?_
  cases n with
  | zero => omega
  | succ n =>
    -- The parameter on its own, in its parentheses.
    have hcomes : Comes n .lowest s' (.name param) b
        (sign .fatArrow :: (body.lexemes ++ sign .rparen :: x :: r)) := by
      refine comes_of_operandHere (runs_group (hkind rfl) (by simp)
        (fun hident => absurd hident (hkind rfl)) hs' fun s'' hs'' => ?_)
      cases n with
      | zero => omega
      | succ n =>
        have hlength : 2 * (Expr.name param).lexemes.length ≤ n := by
          simp only [Expr.lexemes, List.length_cons, List.length_nil]
          omega
        have hcomes : Comes n .lowest s'' (.name param) _ _ :=
          hname.comes hlength (by decide) hs'' (follows_of_endsOperand rfl)
        have hfirst := hcomes.runs (Nat.zero_le _)
        rwa [Expr.lexemes, Node.inCaseAfter_cons (hkind rfl),
          Node.inCaseAfter_nil] at hfirst
    refine (hcomes.then_operator ?_ (by simp)
      (by decide) fun e' s'' he' hs'' => ?_).runs (Nat.zero_le _)
    · simp only [List.length_append, List.length_cons]
      omega
    · unfold Grammar.operatorHere
      rw [runs_current_bind, hs''.current_sign]
      change Runs (Grammar.arrowHere _ _) _ _
      obtain ⟨param', rfl, hparam'⟩ : ∃ param', e' = .name param' ∧
          param'.bare = param.bare := by
        cases e' with
        | name param' => exact ⟨param', rfl, Expr.name.inj he'⟩
        | _ => simp [Expr.bare] at he'
      exact runs_arrowBody hbody (by omega) (by simp [hparam']) hs''.faces

/-- Whatever stands for a parameter of an arrow is a name or a type. -/
theorem Node.isTerm_of_arrowIsWellFormed {params : List Name}
    (hparams : arrowIsWellFormed params = true) :
    ∀ param ∈ params, Syntax.isTerm param.text = true := by
  intro param hparam
  unfold arrowIsWellFormed at hparams
  split at hparams
  · rw [List.mem_singleton.mp hparam]
    exact hparams
  · have hident : param.isIdentifier = true :=
      List.all_eq_true.mp hparams param hparam
    unfold Name.isIdentifier at hident
    unfold Syntax.isTerm
    rw [hident, Bool.true_or]

theorem Expr.reads_arrow {params : List Name} {body : Expr}
    (hparams : Node.arrowIsWellFormed params = true)
    (hnames : ∀ param ∈ params, (Expr.name param).Reads b)
    (hbody : body.Reads b) : (Expr.arrow params body loc).Reads b := by
  unfold Node.arrowIsWellFormed at hparams
  split at hparams
  · next param =>
    unfold Syntax.isTerm at hparams
    rw [Bool.or_eq_true] at hparams
    rcases hparams with hident | htype
    · refine reads_arrow_names ?_ hbody
      rw [List.all_cons, List.all_nil, Bool.and_true]
      exact hident
    · exact reads_arrow_type htype (hnames param List.mem_cons_self) hbody
  · exact reads_arrow_names hparams hbody

end Script
