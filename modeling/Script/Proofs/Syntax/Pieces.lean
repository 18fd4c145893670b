import Script.Syntax.Tree

/-!
# Pieces of programs

An expression or a statement is a piece of program, and the pieces right inside
it stand next to it, in the body of a loop or in the body of a function.  That is
all that is asked about a tree here: what is written somewhere inside a piece,
and which jumps can lead out of it.
-/

namespace Script

/-- Where a piece stands that is right inside another one. -/
inductive Nesting where
  | beside | loopBody | functionBody
  deriving DecidableEq

inductive Piece where
  | expr (e : Expr)
  | stmt (s : Stmt)

namespace Piece

/-- The pieces right inside a piece. -/
abbrev Children : Type := List (Nesting × Piece)

def ofExprs (es : List Expr) : Children := es.map fun e => (.beside, expr e)

def ofBlock (nesting : Nesting) (b : Block) : Children :=
  b.statements.map fun s => (nesting, stmt s)

def ofBlock? (b : Option Block) : Children :=
  b.toList.flatMap (ofBlock .beside)

def ofHeader : LoopHeader → Children
  | .items _ iterable | .pairs _ _ iterable => ofExprs [iterable]
  | .counting start condition update =>
    start.toList.map (fun s => (.beside, stmt s)) ++
      ofExprs (condition.toList ++ update.toList)

def ofAttempt (t : Attempt) : Children :=
  ofBlock .beside t.body ++ ofBlock? t.handler

def ofFunction (f : Function) : Children := ofBlock .functionBody f.body

def ofExpr : Expr → Children
  | .name _ | .int .. | .float .. | .str .. | .bool .. => []
  | .unary _ right _ => ofExprs [right]
  | .binary left _ right _ => ofExprs [left, right]
  | .step _ target _ => ofExprs [target]
  | .assign target _ value _ => ofExprs [target, value]
  | .branch condition consequence alternative _ =>
    ofExprs [condition] ++ ofBlock .beside consequence ++ ofBlock? alternative
  | .function f => ofFunction f
  | .arrow _ body _ => [(.functionBody, expr body)]
  | .call callee args _ => ofExprs (callee :: args)
  | .array elements _ => ofExprs elements
  | .index left index _ => ofExprs [left, index]
  | .slice left start stop _ =>
    ofExprs (left :: start.toList ++ stop.toList)
  | .spread value _ => ofExprs [value]
  | .map entries _ => ofExprs (entries.flatMap fun e => [e.key, e.value])
  | .member object _ _ => ofExprs [object]
  | .record _ fields _ => ofExprs (fields.map (·.value))
  | .whileLoop condition body _ =>
    ofExprs [condition] ++ ofBlock .loopBody body
  | .forLoop header body _ => ofHeader header ++ ofBlock .loopBody body
  | .switch subject cases default _ =>
    ofExprs (subject :: cases.flatMap (·.values)) ++
      cases.flatMap (fun c => ofBlock .beside c.body) ++ ofBlock? default
  | .ternary condition consequence alternative _ =>
    ofExprs [condition, consequence, alternative]
  | .range start stop _ => ofExprs [start, stop]
  | .attempt t => ofAttempt t

def ofStmt : Stmt → Children
  | .bind _ _ _ value _ => ofExprs [value]
  | .ret value _ => ofExprs value.toList
  | .attempt t => ofAttempt t
  | .method _ f _ => ofFunction f
  | .expr e _ => ofExprs [e]
  | .includes .. | .struct .. | .enum .. | .brk _ | .cont _ => []

def children : Piece → Children
  | expr e => ofExpr e
  | stmt s => ofStmt s

/-- A piece that is written somewhere inside another one, function bodies
included, or is that piece itself. -/
inductive Occurs (p : Piece) : Piece → Prop where
  | here : Occurs p p
  | inside {nesting : Nesting} {q q' : Piece} (h : (nesting, q) ∈ q'.children)
      (hq : Occurs p q) : Occurs p q'

/-- A piece inside another one that is evaluated along with it: what is in the
body of a function is not. -/
inductive Within (p : Piece) : Piece → Prop where
  | child {nesting : Nesting} {q : Piece} (h : (nesting, p) ∈ q.children)
      (hnesting : nesting ≠ .functionBody) : Within p q
  | deeper {nesting : Nesting} {q q' : Piece} (h : (nesting, q) ∈ q'.children)
      (hnesting : nesting ≠ .functionBody) (hq : Within p q) : Within p q'

theorem Occurs.of_within {p q : Piece} (h : Within p q) : Occurs p q := by
  induction h with
  | child h _ => exact .inside h .here
  | deeper h _ _ ih => exact .inside h ih

theorem Occurs.trans {p q q' : Piece} (h : Occurs p q) (h' : Occurs q q') :
    Occurs p q' := by
  induction h' with
  | here => exact h
  | inside hchild _ ih => exact .inside hchild ih

/-! ### Jumps -/

end Piece

inductive Jump where
  | ret | brk | cont
  deriving DecidableEq

/-- The jump that a statement is. -/
def Stmt.jump? : Stmt → Option Jump
  | .ret .. => some .ret
  | .brk _ => some .brk
  | .cont _ => some .cont
  | _ => none

/-- Whether a jump leads on, out of the piece that it was written in.  A loop
takes up the `break` and the `continue` in its body, and a function takes up
everything. -/
def Nesting.passes : Nesting → Jump → Bool
  | .beside, _ => true
  | .loopBody, j => j == .ret
  | .functionBody, _ => false

namespace Piece

/-- A jump is written in a piece that neither a loop nor a function inside the
piece takes up. -/
inductive HasJump (j : Jump) : Piece → Prop where
  | here {s : Stmt} (h : s.jump? = some j) : HasJump j (stmt s)
  | inside {nesting : Nesting} {p q : Piece} (h : (nesting, p) ∈ q.children)
      (hpasses : nesting.passes j = true) (hp : HasJump j p) : HasJump j q

/-! ### Size -/

noncomputable def size : Piece → Nat
  | expr e => sizeOf e
  | stmt s => sizeOf s

variable {nesting nesting' : Nesting} {p : Piece}

theorem mem_ofExprs {es : List Expr} :
    (nesting, p) ∈ ofExprs es ↔ nesting = .beside ∧ ∃ e ∈ es, p = expr e := by
  simp [ofExprs, eq_comm, and_left_comm]

theorem mem_ofBlock {b : Block} :
    (nesting, p) ∈ ofBlock nesting' b ↔
      nesting = nesting' ∧ ∃ s ∈ b.statements, p = stmt s := by
  simp [ofBlock, eq_comm, and_left_comm]

theorem mem_ofBlock? {b : Option Block} :
    (nesting, p) ∈ ofBlock? b ↔
      nesting = .beside ∧ ∃ b' ∈ b, ∃ s ∈ b'.statements, p = stmt s := by
  simp [ofBlock?, mem_ofBlock, and_left_comm]

theorem size_lt_of_exprs {es : List Expr} {n : Nat}
    (h : (nesting, p) ∈ ofExprs es) (hes : ∀ e ∈ es, sizeOf e < n) :
    p.size < n := by
  obtain ⟨-, e, he, rfl⟩ := mem_ofExprs.mp h
  exact hes e he

theorem size_lt_of_block {b : Block}
    (h : (nesting, p) ∈ ofBlock nesting' b) : p.size < sizeOf b := by
  obtain ⟨-, s, hs, rfl⟩ := mem_ofBlock.mp h
  have hlt := List.sizeOf_lt_of_mem hs
  cases b
  simp only [size, Block.mk.sizeOf_spec] at hlt ⊢
  omega

theorem size_lt_of_block? {b : Option Block}
    (h : (nesting, p) ∈ ofBlock? b) : p.size < sizeOf b := by
  obtain ⟨-, b', rfl, s, hs, rfl⟩ := mem_ofBlock?.mp h
  have hlt : (stmt s).size < sizeOf b' :=
    size_lt_of_block (mem_ofBlock.mpr ⟨rfl, s, hs, rfl⟩ : (Nesting.beside, _) ∈ _)
  simp only [Option.some.sizeOf_spec]
  omega

theorem size_lt_of_attempt {t : Attempt}
    (h : (nesting, p) ∈ ofAttempt t) : p.size < sizeOf t := by
  have hparts : p.size < sizeOf t.body ∨ p.size < sizeOf t.handler :=
    (List.mem_append.mp h).imp size_lt_of_block size_lt_of_block?
  cases t
  simp only [Attempt.mk.sizeOf_spec] at hparts ⊢
  omega

theorem size_lt_of_function {f : Function}
    (h : (nesting, p) ∈ ofFunction f) : p.size < sizeOf f := by
  have hlt := size_lt_of_block h
  cases f
  simp only [Function.mk.sizeOf_spec] at hlt ⊢
  omega

theorem size_lt_of_header {header : LoopHeader}
    (h : (nesting, p) ∈ ofHeader header) : p.size < sizeOf header := by
  cases header with
  | items name iterable | pairs key value iterable =>
    refine size_lt_of_exprs h fun e he => ?_
    obtain rfl := List.mem_singleton.mp he
    simp only [LoopHeader.items.sizeOf_spec, LoopHeader.pairs.sizeOf_spec]
    omega
  | counting start condition update =>
    rcases List.mem_append.mp h with h | h
    · obtain ⟨s, hs, heq⟩ := List.mem_map.mp h
      obtain ⟨-, rfl⟩ := Prod.mk.inj heq
      obtain rfl := Option.mem_toList.mp hs
      simp [size]
      omega
    · refine size_lt_of_exprs h fun e he => ?_
      rcases List.mem_append.mp he with he | he <;>
        (obtain rfl := Option.mem_toList.mp he; simp; omega)

theorem size_lt_of_expr {e : Expr} (h : (nesting, p) ∈ ofExpr e) :
    p.size < sizeOf e := by
  cases e with
  | name | int | float | str | bool => cases h
  | unary | binary | step | assign | index | spread | member | ternary
  | range =>
    exact size_lt_of_exprs h (by simp; omega)
  | branch condition consequence alternative =>
    simp only [ofExpr, List.mem_append, mem_ofExprs, List.mem_singleton] at h
    rcases h with (⟨-, e, rfl, rfl⟩ | h) | h
    · simp [size]
      omega
    · have := size_lt_of_block h
      simp
      omega
    · have := size_lt_of_block? h
      simp
      omega
  | function f =>
    have := size_lt_of_function h
    simp
    omega
  | arrow params body loc =>
    obtain ⟨-, rfl⟩ := Prod.mk.inj (List.mem_singleton.mp h)
    simp [size]
    omega
  | call callee args loc =>
    refine size_lt_of_exprs h fun e he => ?_
    rcases List.mem_cons.mp he with rfl | he
    · simp
      omega
    · have := List.sizeOf_lt_of_mem he
      simp
      omega
  | array elements loc =>
    refine size_lt_of_exprs h fun e he => ?_
    have := List.sizeOf_lt_of_mem he
    simp
    omega
  | slice left start stop loc =>
    refine size_lt_of_exprs h fun e he => ?_
    simp only [List.cons_append, List.mem_cons, List.mem_append,
      Option.mem_toList] at he
    rcases he with rfl | rfl | rfl <;> (simp; omega)
  | map entries loc =>
    refine size_lt_of_exprs h fun e he => ?_
    obtain ⟨⟨key, value⟩, hentry, he⟩ := List.mem_flatMap.mp he
    have hlt := List.sizeOf_lt_of_mem hentry
    simp only [List.mem_cons, List.not_mem_nil, or_false] at he
    rcases he with rfl | rfl <;> (simp at hlt ⊢; omega)
  | record struct fields loc =>
    refine size_lt_of_exprs h fun e he => ?_
    obtain ⟨⟨name, value⟩, hfield, rfl⟩ := List.mem_map.mp he
    have hlt := List.sizeOf_lt_of_mem hfield
    simp at hlt ⊢
    omega
  | whileLoop condition body loc =>
    rcases List.mem_append.mp h with h | h
    · exact size_lt_of_exprs h (by simp; omega)
    · have := size_lt_of_block h
      simp
      omega
  | forLoop header body loc =>
    rcases List.mem_append.mp h with h | h
    · have := size_lt_of_header h
      simp
      omega
    · have := size_lt_of_block h
      simp
      omega
  | switch subject cases default loc =>
    simp only [ofExpr, List.mem_append] at h
    rcases h with (h | h) | h
    · refine size_lt_of_exprs h fun e he => ?_
      rcases List.mem_cons.mp he with rfl | he
      · simp
        omega
      · obtain ⟨⟨values, body, loc⟩, hcase, he⟩ := List.mem_flatMap.mp he
        have hlt := List.sizeOf_lt_of_mem hcase
        have := List.sizeOf_lt_of_mem he
        simp at hlt this ⊢
        omega
    · obtain ⟨⟨values, body, loc⟩, hcase, h⟩ := List.mem_flatMap.mp h
      have hlt := List.sizeOf_lt_of_mem hcase
      have := size_lt_of_block h
      simp at hlt this ⊢
      omega
    · have := size_lt_of_block? h
      simp
      omega
  | attempt t =>
    have := size_lt_of_attempt h
    simp
    omega

theorem size_lt_of_stmt {s : Stmt} (h : (nesting, p) ∈ ofStmt s) :
    p.size < sizeOf s := by
  cases s with
  | includes | struct | enum | brk | cont => cases h
  | bind | expr => exact size_lt_of_exprs h (by simp; omega)
  | ret value loc =>
    refine size_lt_of_exprs h fun e he => ?_
    obtain rfl := Option.mem_toList.mp he
    simp
    omega
  | attempt t =>
    have := size_lt_of_attempt h
    simp
    omega
  | method struct f loc =>
    have := size_lt_of_function h
    simp
    omega

/-- What is inside a piece is smaller. -/
theorem size_lt_of_child {q : Piece} (h : (nesting, p) ∈ q.children) :
    p.size < q.size := by
  cases q with
  | expr e => exact size_lt_of_expr h
  | stmt s => exact size_lt_of_stmt h

theorem Within.size_lt {q : Piece} (h : Within p q) : p.size < q.size := by
  induction h with
  | child h _ => exact size_lt_of_child h
  | deeper h _ _ ih => exact Nat.lt_trans ih (size_lt_of_child h)

end Piece

end Script
