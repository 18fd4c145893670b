import Script.Proofs.Syntax.Pieces
import Script.Syntax.Scan

/-!
# Marks and jumps

The marks of a piece of program are looked for in all pieces right inside it, one
loop or one function deeper where these are in the body of one.  So each jump that
leads out of a piece has left a mark, and a loop body without the marks of a `break`
or `return` that leave the loop has no such jump.
-/

namespace Script

/-- The depth of a place that is that much further inside. -/
def Nesting.deepen : Nesting → Depth → Depth
  | .beside, d => d
  | .loopBody, d => d.inLoop
  | .functionBody, d => d.inFunction

/-! ### Marks of lists -/

section

variable {mark : Mark} {d : Depth}

theorem mem_marksOfExprs {es : List Expr} :
    mark ∈ marksOfExprs es d ↔ ∃ e ∈ es, mark ∈ e.marks d := by
  induction es with
  | nil => simp [marksOfExprs]
  | cons e es ih => simp [marksOfExprs, ih]

theorem mem_marksOfEntries {entries : List Entry} :
    mark ∈ marksOfEntries entries d ↔
      ∃ entry ∈ entries, mark ∈ entry.key.marks d ∨ mark ∈ entry.value.marks d := by
  induction entries with
  | nil => simp [marksOfEntries]
  | cons entry entries ih =>
    obtain ⟨key, value⟩ := entry
    simp [marksOfEntries, Entry.marks, ih, or_assoc]

theorem mem_marksOfFields {fields : List Field} :
    mark ∈ marksOfFields fields d ↔
      ∃ field ∈ fields, mark ∈ field.value.marks d := by
  induction fields with
  | nil => simp [marksOfFields]
  | cons field fields ih =>
    obtain ⟨name, value⟩ := field
    simp [marksOfFields, Field.marks, ih]

theorem mem_marksOfCases {cases : List Case} :
    mark ∈ marksOfCases cases d ↔
      ∃ c ∈ cases, mark ∈ marksOfExprs c.values d ∨ mark ∈ c.body.marks d := by
  induction cases with
  | nil => simp [marksOfCases]
  | cons c cases ih =>
    obtain ⟨values, body, loc⟩ := c
    simp [marksOfCases, Case.marks, ih, or_assoc]

theorem mem_marks_block {b : Block} :
    mark ∈ b.marks d ↔ ∃ s ∈ b.statements, mark ∈ s.marks d := by
  obtain ⟨statements, loc⟩ := b
  have hstmts : ∀ ss : List Stmt,
      mark ∈ marksOfStmts ss d ↔ ∃ s ∈ ss, mark ∈ s.marks d := by
    intro ss
    induction ss with
    | nil => simp [marksOfStmts]
    | cons s ss ih => simp [marksOfStmts, ih]
  simp [Block.marks, hstmts]

theorem mem_marksOfExpr? {e : Option Expr} :
    mark ∈ marksOfExpr? e d ↔ ∃ e' ∈ e.toList, mark ∈ e'.marks d := by
  cases e <;> simp [marksOfExpr?]

theorem mem_marksOfStmt? {s : Option Stmt} :
    mark ∈ marksOfStmt? s d ↔ ∃ s' ∈ s.toList, mark ∈ s'.marks d := by
  cases s <;> simp [marksOfStmt?]

end

namespace Piece

def marks : Piece → Depth → List Mark
  | expr e, d => e.marks d
  | stmt s, d => s.marks d

/-- All marks of the pieces are among the marks of what they are in. -/
def MarkedIn (children : Children) (d : Depth) (marks : List Mark) : Prop :=
  ∀ child ∈ children, ∀ mark ∈ child.2.marks (child.1.deepen d), mark ∈ marks

section

variable {d : Depth} {marks : List Mark}

@[simp]
theorem markedIn_append {children children' : Children} :
    MarkedIn (children ++ children') d marks ↔
      MarkedIn children d marks ∧ MarkedIn children' d marks :=
  List.forall_mem_append

@[simp]
theorem markedIn_exprs {es : List Expr} :
    MarkedIn (ofExprs es) d marks ↔ ∀ e ∈ es, ∀ mark ∈ e.marks d, mark ∈ marks :=
  List.forall_mem_map

@[simp]
theorem markedIn_block {nesting : Nesting} {b : Block} :
    MarkedIn (ofBlock nesting b) d marks ↔
      ∀ mark ∈ b.marks (nesting.deepen d), mark ∈ marks := by
  refine List.forall_mem_map.trans ⟨fun h mark hmark => ?_, fun h s hs mark hmark => ?_⟩
  · obtain ⟨s, hs, hmark⟩ := mem_marks_block.mp hmark
    exact h s hs mark hmark
  · exact h mark (mem_marks_block.mpr ⟨s, hs, hmark⟩)

@[simp]
theorem markedIn_block? {b : Option Block} :
    MarkedIn (ofBlock? b) d marks ↔ ∀ mark ∈ marksOfBlock? b d, mark ∈ marks := by
  cases b with
  | none => simp [ofBlock?, marksOfBlock?, MarkedIn]
  | some b =>
    rw [ofBlock?, Option.toList_some, List.flatMap_singleton]
    exact markedIn_block

@[simp]
theorem markedIn_cases {cases : List Case} :
    MarkedIn (cases.flatMap fun c => ofBlock .beside c.body) d marks ↔
      ∀ c ∈ cases, ∀ mark ∈ c.body.marks d, mark ∈ marks := by
  induction cases with
  | nil => simp [MarkedIn]
  | cons c cases ih => simp [ih, Nesting.deepen]

@[simp]
theorem markedIn_attempt (t : Attempt) : MarkedIn (ofAttempt t) d (t.marks d) := by
  obtain ⟨body, param, handler, loc⟩ := t
  simp +contextual [ofAttempt, Attempt.marks, Nesting.deepen]

@[simp]
theorem markedIn_function (f : Function) : MarkedIn (ofFunction f) d (f.marks d) := by
  obtain ⟨name, params, returns, body, loc⟩ := f
  simp [ofFunction, Function.marks, Nesting.deepen]

theorem markedIn_header (header : LoopHeader) :
    MarkedIn (ofHeader header) d (header.marks d) := by
  cases header with
  | items | pairs => simp [ofHeader, LoopHeader.marks]
  | counting start condition update =>
    have hstart : ∀ mark ∈ marksOfStmt? start d,
        mark ∈ LoopHeader.marks (.counting start condition update) d := by
      simp +contextual [LoopHeader.marks]
    refine markedIn_append.mpr ⟨?_, ?_⟩
    · intro child hchild mark hmark
      obtain ⟨s, hs, rfl⟩ := List.mem_map.mp hchild
      exact hstart mark (mem_marksOfStmt?.mpr ⟨s, hs, hmark⟩)
    · simp only [markedIn_exprs, LoopHeader.marks, List.mem_append, mem_marksOfExpr?]
      grind

end

/-- The marks of an expression are those of what is right inside it, and those that it
makes itself. -/
theorem markedIn_expr (e : Expr) (d : Depth) : MarkedIn (ofExpr e) d (e.marks d) := by
  cases e with
  | name | int | float | str | bool => simp [ofExpr, MarkedIn]
  | arrow params body loc =>
    simp [ofExpr, MarkedIn, Expr.marks, Piece.marks, Nesting.deepen]
  | forLoop header body loc =>
    refine markedIn_append.mpr ⟨fun child hchild mark hmark => ?_, ?_⟩
    · exact List.mem_append_left _ (markedIn_header header child hchild mark hmark)
    · simp +contextual [Expr.marks, Nesting.deepen]
  | unary | step | spread | member | function | attempt =>
    simp [ofExpr, Expr.marks]
  | _ =>
    simp only [ofExpr, markedIn_append, markedIn_exprs, markedIn_block, markedIn_block?,
      markedIn_cases, Expr.marks, List.mem_append, mem_marksOfExprs, mem_marksOfEntries,
      mem_marksOfFields, mem_marksOfCases, mem_marksOfExpr?, Nesting.deepen]
    grind

theorem markedIn_stmt (s : Stmt) (d : Depth) : MarkedIn (ofStmt s) d (s.marks d) := by
  cases s with
  | includes | struct | enum | brk | cont => simp [ofStmt, MarkedIn]
  | ret value loc =>
    simp only [ofStmt, markedIn_exprs, Stmt.marks, List.mem_cons, mem_marksOfExpr?]
    grind
  | _ => simp [ofStmt, Stmt.marks]

theorem marks_of_child {nesting : Nesting} {p q : Piece} {d : Depth} {mark : Mark}
    (h : (nesting, p) ∈ q.children) (hmark : mark ∈ p.marks (nesting.deepen d)) :
    mark ∈ q.marks d := by
  cases q with
  | expr e => exact markedIn_expr e d _ h mark hmark
  | stmt s => exact markedIn_stmt s d _ h mark hmark

/-! ### Jumps leave marks -/

/-- A `break` that leads out of a piece is marked at the depth of the piece: no loop
and no function is around it there. -/
theorem HasJump.brk_marked {p : Piece} (h : HasJump .brk p) (d : Depth) :
    .brk d ∈ p.marks d := by
  induction h with
  | @here s hjump =>
    cases s with
    | brk loc => exact List.mem_singleton_self _
    | _ => cases hjump
  | @inside nesting p q hchild hpasses _ ih =>
    cases nesting with
    | beside => exact marks_of_child hchild ih
    | loopBody | functionBody => cases hpasses

/-- A `return` that leads out of a piece is marked with no more functions around it
than the piece has, however many loops there are. -/
theorem HasJump.ret_marked {p : Piece} (h : HasJump .ret p) (d : Depth) :
    ∃ inner : Depth, inner.functions = d.functions ∧ .ret inner ∈ p.marks d := by
  induction h generalizing d with
  | @here s hjump =>
    cases s with
    | ret value loc => exact ⟨d, rfl, List.mem_cons_self⟩
    | _ => cases hjump
  | @inside nesting p q hchild hpasses _ ih =>
    obtain ⟨inner, hfunctions, hmark⟩ := ih (nesting.deepen d)
    refine ⟨inner, ?_, marks_of_child hchild hmark⟩
    cases nesting with
    | beside | loopBody => exact hfunctions
    | functionBody => cases hpasses

end Piece

/-- Where a loop body is found to have no way out, no `break` and no `return` leads
out of its statements. -/
theorem Block.no_jump_of_canLeave {body : Block} (hstays : body.canLeave = false)
    {s : Stmt} (hs : s ∈ body.statements) {j : Jump}
    (hjump : Piece.HasJump j (.stmt s)) : j = .cont := by
  have hmarks : ∀ mark ∈ s.marks {}, mark.leavesLoop = false := by
    intro mark hmark
    rw [canLeave, List.any_eq_false] at hstays
    simpa using hstays mark (mem_marks_block.mpr ⟨s, hs, hmark⟩)
  cases j with
  | cont => rfl
  | brk => cases hmarks _ (hjump.brk_marked {})
  | ret =>
    obtain ⟨inner, hfunctions, hmark⟩ := hjump.ret_marked {}
    have hleaves := hmarks _ hmark
    rw [Mark.leavesLoop, hfunctions] at hleaves
    cases hleaves

end Script
