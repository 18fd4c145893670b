import Script.Proofs.Eval.Identical
import Script.Session

/-!
# Runs that end

A program ends if no `while` and no counting loop is written in it: the limit on
calls bounds everything else.  An expression or a statement goes into itself only
as deep as it is large, a built-in function passes on fewer arguments than it was
called with, and a call of any other function runs one of finitely many bodies,
one call nearer to the limit.  What a walk goes over is known when it starts, so
it needs no bound.

The machine of such a run holds no code but that of the program and of the
modules, which is what the comparison of the run with itself is guarded by.
-/

namespace Script

open Scope (Arena FrameId)
open Comparison

/-! ### Code that fits -/

namespace Piece

/-- Every loop written in a piece, function bodies included, walks over something. -/
def LoopsEnd (p : Piece) : Prop := ∀ q : Piece, q.Occurs p → ¬ q.IsOpenLoop

theorem LoopsEnd.child {p q : Piece} {nesting : Nesting} (h : p.LoopsEnd)
    (hq : (nesting, q) ∈ p.children) : q.LoopsEnd :=
  fun q' hq' => h q' (.inside hq hq')

/-- Whether loops end can be seen piece by piece. -/
theorem loopsEnd_iff {p : Piece} :
    p.LoopsEnd ↔ ¬ p.IsOpenLoop ∧ ∀ c ∈ p.children, c.2.LoopsEnd := by
  refine ⟨fun h => ⟨h p .here, fun c hc => h.child hc⟩, ?_⟩
  rintro ⟨h, hchildren⟩ q hq
  cases hq with
  | here => exact h
  | inside hchild hq => exact hchildren _ hchild q hq

theorem loopsEnd_expr_iff {e : Expr} :
    (expr e).LoopsEnd ↔
      ¬ (expr e).IsOpenLoop ∧ ∀ c ∈ ofExpr e, c.2.LoopsEnd :=
  loopsEnd_iff

theorem loopsEnd_stmt_iff {s : Stmt} :
    (stmt s).LoopsEnd ↔
      ¬ (stmt s).IsOpenLoop ∧ ∀ c ∈ ofStmt s, c.2.LoopsEnd :=
  loopsEnd_iff

/-- A piece of at most a certain size whose loops end. -/
structure Fits (size : Nat) (p : Piece) : Prop where
  loopsEnd : p.LoopsEnd
  size_le : p.size ≤ size

variable {size : Nat} {p q : Piece}

theorem Fits.child {nesting : Nesting} (h : p.Fits size)
    (hq : (nesting, q) ∈ p.children) : q.Fits size where
  loopsEnd := h.loopsEnd.child hq
  size_le := Nat.le_trans (Nat.le_of_lt (size_lt_of_child hq)) h.size_le

theorem Fits.within (h : p.Fits size) (hq : q.Within p) : q.Fits size where
  loopsEnd q' hq' := h.loopsEnd q' (hq'.trans (.of_within hq))
  size_le := Nat.le_trans (Nat.le_of_lt hq.size_lt) h.size_le

theorem Fits.mono {size' : Nat} (h : p.Fits size) (hle : size ≤ size') :
    p.Fits size' :=
  ⟨h.loopsEnd, Nat.le_trans h.size_le hle⟩

end Piece

def Function.Fits (size : Nat) (f : Function) : Prop :=
  ∀ s ∈ f.body.statements, (Piece.stmt s).Fits size

/-- The code in a value fits. -/
def Value.Fits (size : Nat) : Value → Prop
  | .function f => f.code.Fits size
  | .arrow f => (Piece.expr f.body).Fits size
  | _ => True

theorem Value.Fits.mono {size size' : Nat} {v : Value} (h : v.Fits size)
    (hle : size ≤ size') : v.Fits size' := by
  cases v with
  | function f => exact fun s hs => (h s hs).mono hle
  | arrow f => exact Piece.Fits.mono h hle
  | _ => trivial

namespace Library

/-- The code that modules bring in fits. -/
def Fits (size : Nat) (library : Library) : Prop :=
  ∀ name bindings, library name = some bindings →
    ∀ x ∈ bindings, x.2.Fits size

theorem Fits.mono {size size' : Nat} {library : Library} (h : library.Fits size)
    (hle : size ≤ size') : library.Fits size' :=
  fun name bindings hfound x hx => (h name bindings hfound x hx).mono hle

/-- The modules of the language hold no code at all. -/
theorem standard_fits (size : Nat) : standard.Fits size := by
  intro name bindings hfound x hx
  unfold standard at hfound
  split at hfound <;> cases hfound
  · rcases List.mem_append.mp hx with hx | hx
    · obtain ⟨f, -, rfl⟩ := List.mem_map.mp hx
      trivial
    · simp only [List.mem_cons, List.not_mem_nil, or_false] at hx
      rcases hx with rfl | rfl <;> trivial
  · obtain ⟨f, -, rfl⟩ := List.mem_map.mp hx
    trivial

end Library

/-! ### The guard -/

open Classical in
/-- Changes all code that does not fit. -/
noncomputable def Recoding.fitting (size : Nat) : Recoding where
  loc := id
  function f :=
    if f.Fits size then f
    else
      { f with body :=
        { f.body with statements := .brk f.loc :: f.body.statements } }
  params := id
  body e := if (Piece.expr e).Fits size then e else .spread e default
  refusal := .recursionDepth
  function_name f := by split <;> rfl
  function_params f := by split <;> rfl
  params_text _ := rfl

namespace Recoding

variable {size : Nat}

theorem fitting_function_eq_self {f : Function} :
    (fitting size).function f = f ↔ f.Fits size := by
  constructor
  · intro heq
    by_cases hf : f.Fits size
    · exact hf
    · simp only [fitting, if_neg hf] at heq
      have hbody := congrArg (fun f : Function => f.body.statements.length) heq
      simp at hbody
  · exact fun hf => if_pos hf

theorem fitting_body_eq_self {e : Expr} :
    (fitting size).body e = e ↔ (Piece.expr e).Fits size := by
  constructor
  · intro heq
    by_cases he : (Piece.expr e).Fits size
    · exact he
    · simp only [fitting, if_neg he] at heq
      have hsize := congrArg sizeOf heq
      simp at hsize
      omega
  · exact fun he => if_pos he

theorem fitting_keeps {p : Piece} (h : p.Fits size) : (fitting size).Keeps p := by
  have hfunction : ∀ f : Function, (∀ s ∈ f.body.statements,
      (Nesting.functionBody, Piece.stmt s) ∈ p.children) →
      (fitting size).function f = f := fun f hf =>
    fitting_function_eq_self.mpr fun s hs => h.child (hf s hs)
  unfold Keeps
  split
  · exact hfunction _ fun s hs => Piece.mem_ofBlock.mpr ⟨rfl, s, hs, rfl⟩
  · exact ⟨rfl, fitting_body_eq_self.mpr (h.child (List.mem_singleton_self _))⟩
  · exact hfunction _ fun s hs => Piece.mem_ofBlock.mpr ⟨rfl, s, hs, rfl⟩
  · trivial

theorem recode_fitting {v : Value} (h : v.Fits size) :
    recode (fitting size) v = v := by
  cases v with
  | function f =>
    change Value.function { f with code := (fitting size).function f.code } = _
    rw [fitting_function_eq_self.mpr h]
  | arrow f =>
    change Value.arrow { f with body := (fitting size).body f.body } = _
    rw [fitting_body_eq_self.mpr h]
  | _ => rfl

end Recoding

namespace Comparison

/-- A run beside itself, whose machine holds only code that fits, and which must
not come to the end of its bound. -/
noncomputable def ending (size : Nat) : Comparison where
  move := id
  guard := .fitting size
  guard_loc := rfl
  exact := True
  exact_move := Comparison.stays
  printed := ("", "")
  stopping := .never

namespace ending

variable {size : Nat}

theorem related_library {library : Library} (h : library.Fits size)
    (name : String) : (ending size).Related (library name) (library name) where
  moved := Fixes.recode_eq (ρ := .relocation id) (library name)
  guarded := by
    cases hfound : library name with
    | none => rfl
    | some bindings =>
      refine congrArg some ?_
      change bindings.map (recode (.fitting size)) = bindings
      have hbindings : ∀ x ∈ bindings, recode (.fitting size) x = x :=
        fun x hx => Prod.ext rfl (Recoding.recode_fitting (h name _ hfound x hx))
      rw [List.map_congr_left hbindings]
      exact List.map_id bindings

theorem agree_start (size : Nat) (input : String) (layout : Layout) :
    (ending size).Agree 0 (.start input layout) (.start input layout) where
  scopes := ⟨Arena.new_map _, Arena.new_map _⟩
  heap := ⟨Heap.recode_empty _ layout, Heap.recode_empty _ layout⟩
  input := rfl
  output := ⟨"", rfl, rfl⟩
  firstDepth := rfl
  secondDepth := rfl
  noticed _ := ⟨rfl, rfl, rfl⟩
  placed _ _ := trivial

end ending

/-! ### Room -/

/-- The bound that is used up by the calls which can still be made. -/
def room (limit size depth : Nat) : Nat := (limit - depth) * (size + 4)

theorem room_eq_of_lt (size : Nat) {limit depth : Nat} (h : depth < limit) :
    room limit size depth = room limit size (depth + 1) + (size + 4) := by
  obtain ⟨k, rfl⟩ := Nat.exists_eq_add_of_lt h
  have hnow : depth + k + 1 - depth = k + 1 := by omega
  have hnext : depth + k + 1 - (depth + 1) = k := by omega
  rw [room, room, hnow, hnext, Nat.succ_mul]

/-- What a bound leaves room for comes to an end: code that fits, and calls with a
number of arguments. -/
structure EndsInRoom (settings : Settings) (size n : Nat) : Prop where
  piece : ∀ {depth p}, p.Fits size →
    p.size + 3 + room settings.callLimit size depth < n →
    (ending size).FollowsPiece (.bounded settings n) (.bounded settings n) depth p
  apply : ∀ {depth k}, k + room settings.callLimit size depth ≤ n →
    (ending size).FollowsApply (.bounded settings n) (.bounded settings n) depth k

namespace EndsInRoom

variable {settings : Settings} {size n : Nat}

/-- Bodies of functions have room one call further in. -/
theorem sides (h : EndsInRoom settings size n) {depth k : Nat}
    (hroom : k + room settings.callLimit size depth ≤ n) :
    (ending size).Sides (.bounded settings n) (.bounded settings n) depth k where
  limit := Or.inl rfl
  function hdepth f hf s hs frame := by
    have hfits := Recoding.fitting_function_eq_self.mp hf s hs
    have hnext : room settings.callLimit size depth = _ :=
      room_eq_of_lt size hdepth
    have hsize := hfits.size_le
    exact (h.piece hfits (by omega) frame).weaken fun _ _ => trivial
  arrow hdepth body hbody frame := by
    have hfits := Recoding.fitting_body_eq_self.mp hbody
    have hnext : room settings.callLimit size depth = _ :=
      room_eq_of_lt size hdepth
    have hsize := hfits.size_le
    exact (h.piece hfits (by omega) frame).weaken fun _ _ => trivial
  refused _ _ := rfl
  apply := h.apply hroom

variable (hlibrary : settings.library.Fits size)
include hlibrary

/-- A bound that is larger by one leaves room for one step more. -/
theorem next (h : EndsInRoom settings size n) :
    EndsInRoom settings size (n + 1) where
  piece {depth p} hp hroom := by
    have hcalls : 3 + room settings.callLimit size depth ≤ n := by omega
    have hwithin : (ending size).FollowsWithin (.bounded settings n)
        (.bounded settings n) depth p := fun q hq =>
      h.piece (hp.within hq) (by have := hq.size_lt; omega)
    have halike : (ending size).Alike (.bounded settings n) (.bounded settings n) :=
      ⟨ending.related_library hlibrary, Or.inl rfl⟩
    have hends : ¬ p.IsOpenLoop := hp.loopsEnd p .here
    cases p with
    | expr e =>
      exact .evalExpr halike (fun _ => h.sides hcalls) hwithin
        (Recoding.fitting_keeps hp) fun _ => hends
    | stmt s => exact .evalStmt halike hwithin (Recoding.fitting_keeps hp)
  apply {depth k} hroom := by
    intro callee callee' args args' loc hcallee hargs hlt
    have hcalls : args.length + room settings.callLimit size depth ≤ n := by omega
    exact .call (h.sides hcalls) hcallee (Nat.min_le_left _ _) hargs loc

theorem all : EndsInRoom settings size n := by
  induction n with
  | zero =>
    refine ⟨fun _ hroom => by omega, fun hroom => ?_⟩
    intro callee callee' args args' loc _ _ hlt
    omega
  | succ n ih => exact ih.next hlibrary

end EndsInRoom

end Comparison

/-! ### Programs -/

/-- A program whose statements fit ends within a bound that does not depend on
what it reads. -/
theorem Evaluator.program_ne_exhausted {settings : Settings} {size n : Nat}
    (hlibrary : settings.library.Fits size) {p : Program}
    (hp : ∀ s ∈ p.statements, (Piece.stmt s).Fits size)
    (hn : size + 3 + room settings.callLimit size 0 < n) (input : String)
    (layout : Layout) :
    (Evaluator.bounded settings n).program p (.start input layout) ≠ .exhausted := by
  have hall : EndsInRoom settings size n := .all hlibrary
  have hstmts : ∀ s ∈ p.statements, (ending size).FollowsStmt
      (.bounded settings n) (.bounded settings n) 0 anyJump s := by
    intro s hs frame
    have hsize := (hp s hs).size_le
    exact (hall.piece (hp s hs) (by omega) frame).weaken fun _ _ => trivial
  have hprogram := Follows.program hstmts _ _ (ending.agree_start size input layout)
  intro hexhausted
  rw [hexhausted] at hprogram
  cases hprogram with
  | exhausted hstop => exact hstop

/-- A run that ends has a result. -/
theorem Machine.runProgram_of_ne_exhausted {settings : Settings} {n : Nat}
    {p : Program} {m : Machine}
    (h : (Evaluator.bounded settings n).program p m ≠ .exhausted) :
    ∃ result m', m.runProgram settings n p = some (result, m') := by
  unfold runProgram
  split
  · exact ⟨_, _, rfl⟩
  · exact ⟨_, _, rfl⟩
  · exact ⟨_, _, rfl⟩
  · exact (h ‹_›).elim

/-- Without `while` and counting loops, every program comes to an end within a
bound that does not depend on what it reads or on where the entries of maps are,
under every limit on calls.  A larger bound changes nothing.  The modules must not
bring in endless functions either. -/
theorem program_ends (settings : Settings) (p : Program)
    (hlibrary : ∃ size, settings.library.Fits size)
    (hloops : ∀ s ∈ p.statements, (Piece.stmt s).LoopsEnd) :
    ∃ N, ∀ input layout, ∃ result m, ∀ n, N ≤ n →
      (Machine.start input layout).runProgram settings n p = some (result, m) := by
  obtain ⟨size, hlibrary⟩ := hlibrary
  -- One size that is enough for the modules and for the program.
  let total := size + sizeOf p.statements
  have hlibrary : settings.library.Fits total := hlibrary.mono (Nat.le_add_right _ _)
  have hp : ∀ s ∈ p.statements, (Piece.stmt s).Fits total := fun s hs =>
    ⟨hloops s hs, Nat.le_trans (Nat.le_of_lt (List.sizeOf_lt_of_mem hs))
      (Nat.le_add_left _ _)⟩
  let N := total + 3 + room settings.callLimit total 0 + 1
  refine ⟨N, fun input layout => ?_⟩
  have hends := Evaluator.program_ne_exhausted hlibrary hp (Nat.lt_succ_self _)
    input layout
  obtain ⟨result, m, hrun⟩ := Machine.runProgram_of_ne_exhausted hends
  refine ⟨result, m, fun n hn => ?_⟩
  have hmore := identical.program_eq_of_le settings hn p (.start input layout)
  rw [← hrun, Machine.runProgram, Machine.runProgram, hmore.resolve_left hends]

/-- A function that calls itself for every item of a list and goes on when it is
refused, and a call of it. -/
def recursionInWalk (loc : Location) : Program :=
  let call (arg : Expr) : Stmt := .expr (.call (.name ⟨"f", loc⟩) [arg] loc) loc
  let walk : Expr :=
    .forLoop (.items ⟨"y", loc⟩ (.array [.name ⟨"x", loc⟩] loc))
      ⟨[.attempt ⟨⟨[call (.name ⟨"y", loc⟩)], loc⟩, none, none, loc⟩], loc⟩ loc
  let f : Function := ⟨some "f", .plain [⟨"x", loc⟩], [], ⟨[.expr walk loc], loc⟩, loc⟩
  ⟨[.bind false ⟨"f", loc⟩ none (.function f) loc, call (.int 1 loc)], loc⟩

theorem program_ends_recursionInWalk :
    (∃ size, Library.standard.Fits size) ∧
      (∀ s ∈ (recursionInWalk default).statements, (Piece.stmt s).LoopsEnd) ∧
      ∃ N, ∀ input layout, ∃ result m, ∀ n, N ≤ n →
        (Machine.start input layout).runProgram ⟨100, .standard⟩ n
          (recursionInWalk default) = some (result, m) := by
  have hlibrary : ∃ size, Library.standard.Fits size :=
    ⟨0, Library.standard_fits 0⟩
  have hloops : ∀ s ∈ (recursionInWalk default).statements,
      (Piece.stmt s).LoopsEnd := by
    simp [recursionInWalk, Piece.loopsEnd_stmt_iff, Piece.loopsEnd_expr_iff,
      Piece.IsOpenLoop, Piece.ofStmt, Piece.ofExpr, Piece.ofExprs,
      Piece.ofFunction, Piece.ofBlock, Piece.ofHeader, Piece.ofAttempt,
      Piece.ofBlock?]
  exact ⟨hlibrary, hloops, program_ends ⟨100, .standard⟩ _ hlibrary hloops⟩

end Script
