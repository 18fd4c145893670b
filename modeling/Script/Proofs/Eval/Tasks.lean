import Script.Proofs.Eval.Following

/-!
# Whole tasks side by side

An expression or a statement follows if every piece inside it does so that is
evaluated along with it.  The only jumps that leave it are those written in it
that no loop and no function inside it takes up, and no jump leaves a call.
-/

namespace Script

open Scope (Arena FrameId)
open Comparison

/-- The code that a piece makes functions of is left alone. -/
def Recoding.Keeps (ρ : Recoding) : Piece → Prop
  | .expr (.function f) => ρ.function f = f
  | .expr (.arrow params body _) =>
    ρ.params params = params ∧ ρ.body body = body
  | .stmt (.method _ f _) => ρ.function f = f
  | _ => True

/-- A loop that does not know its end when it starts. -/
def Piece.IsOpenLoop : Piece → Prop
  | .expr (.whileLoop ..) => True
  | .expr (.forLoop (.counting ..) ..) => True
  | _ => False

def Piece.IsCall : Piece → Prop
  | .expr (.call ..) => True
  | _ => False

namespace Comparison

section

variable (r : Comparison) (ev₁ ev₂ : Evaluator) (depth : Nat)

/-- A piece follows, and is left only by the jumps that it has. -/
def FollowsPiece (p : Piece) : Prop :=
  match p with
  | .expr e => r.FollowsExpr ev₁ ev₂ depth (Piece.HasJump · p) e
  | .stmt s => r.FollowsStmt ev₁ ev₂ depth (Piece.HasJump · p) s

/-- Everything that is evaluated along with a piece follows. -/
def FollowsWithin (p : Piece) : Prop :=
  ∀ q : Piece, q.Within p → r.FollowsPiece ev₁ ev₂ depth q

/-- Whatever is evaluated follows. -/
structure FollowsAll : Prop where
  piece : ∀ p, r.FollowsPiece ev₁ ev₂ depth p
  apply : ∀ n, r.FollowsApply ev₁ ev₂ depth n

end

variable {r : Comparison} {ev₁ ev₂ : Evaluator} {depth : Nat} {p : Piece}

namespace FollowsWithin

variable (h : r.FollowsWithin ev₁ ev₂ depth p)
include h

theorem expr {e : Expr} (he : (.beside, .expr e) ∈ p.children) :
    r.FollowsExpr ev₁ ev₂ depth (Piece.HasJump · p) e :=
  fun frame => (h (.expr e) (.child he nofun) frame).weaken fun _ hj =>
    .inside he rfl hj

/-- An expression inside an expression that stands beside the others. -/
theorem innerExpr {e e' : Expr} (he : (.beside, .expr e) ∈ Piece.ofExpr e')
    (he' : (.beside, .expr e') ∈ p.children) :
    r.FollowsExpr ev₁ ev₂ depth (Piece.HasJump · p) e :=
  fun frame =>
    (h (.expr e) (.deeper he' nofun (.child he nofun)) frame).weaken
      fun _ hj => .inside he' rfl (.inside he rfl hj)

theorem stmt {s : Stmt} (hs : (.beside, .stmt s) ∈ p.children) :
    r.FollowsStmt ev₁ ev₂ depth (Piece.HasJump · p) s :=
  fun frame => (h (.stmt s) (.child hs nofun) frame).weaken fun _ hj =>
    .inside hs rfl hj

theorem block {b : Block}
    (hb : ∀ s ∈ b.statements, (.beside, .stmt s) ∈ p.children) :
    r.FollowsBlock ev₁ ev₂ depth (Piece.HasJump · p) b :=
  fun s hs => h.stmt (hb s hs)

/-- The body of a loop: what leads out of the loop is a `return` only. -/
theorem loopBody {b : Block}
    (hb : ∀ s ∈ b.statements, (.loopBody, .stmt s) ∈ p.children) :
    r.FollowsBlock ev₁ ev₂ depth
      (fun j => j = .ret → Piece.HasJump .ret p) b :=
  fun s hs frame =>
    (h (.stmt s) (.child (hb s hs) nofun) frame).weaken fun _ hj hret =>
      .inside (hb s hs) rfl (hret ▸ hj)

theorem place {target : Expr} (htarget : (.beside, .expr target) ∈ p.children) :
    ∀ e ∈ placeParts target,
      r.FollowsExpr ev₁ ev₂ depth (Piece.HasJump · p) e := by
  intro e he
  refine h.innerExpr ?_ htarget
  cases target with
  | index left index loc =>
    exact Piece.mem_ofExprs.mpr ⟨rfl, e, he, rfl⟩
  | member object property loc =>
    exact Piece.mem_ofExprs.mpr ⟨rfl, e, he, rfl⟩
  | _ => cases he

theorem elements {es : List Expr}
    (hes : ∀ e ∈ es, (.beside, .expr e) ∈ p.children) :
    ∀ e ∈ es,
      r.FollowsExpr ev₁ ev₂ depth (Piece.HasJump · p) (unspread e) := by
  intro e he
  cases e with
  | spread value loc =>
    have hvalue : (Nesting.beside, Piece.expr value) ∈
        Piece.ofExpr (.spread value loc) :=
      Piece.mem_ofExprs.mpr ⟨rfl, value, List.mem_singleton_self _, rfl⟩
    exact h.innerExpr hvalue (hes _ he)
  | _ => exact h.expr (hes _ he)

theorem callee {e : Expr} (he : (.beside, .expr e) ∈ p.children) :
    r.FollowsExpr ev₁ ev₂ depth (Piece.HasJump · p) (calleePart e) := by
  cases e with
  | member object property loc =>
    have hobject : (Nesting.beside, Piece.expr object) ∈
        Piece.ofExpr (.member object property loc) :=
      Piece.mem_ofExprs.mpr ⟨rfl, object, List.mem_singleton_self _, rfl⟩
    exact h.innerExpr hobject he
  | _ => exact h.expr he

end FollowsWithin

namespace Follows

theorem evalExpr (halike : r.Alike ev₁ ev₂) {e : Expr}
    (hsides : (Piece.expr e).IsCall → r.Sides ev₁ ev₂ depth 3)
    (h : r.FollowsWithin ev₁ ev₂ depth (.expr e))
    (hkeeps : r.guard.Keeps (.expr e))
    (hends : r.stopping = .never → ¬ (Piece.expr e).IsOpenLoop)
    (frame : FrameId) :
    r.Follows depth (Piece.HasJump · (.expr e)) (ev₁.evalExpr frame e)
      (ev₂.evalExpr frame (e.relocate r.move)) := by
  cases e with
  | name id => exact nameValue id frame
  | int value => exact pure ⟨rfl, rfl⟩
  | float literal => exact pure ⟨rfl, rfl⟩
  | str value => exact pure ⟨rfl, rfl⟩
  | bool value => exact pure ⟨rfl, rfl⟩
  | unary op right loc =>
    have hright : (Nesting.beside, Piece.expr right) ∈
        (Piece.expr (.unary op right loc)).children := by
      simp [Piece.children, Piece.ofExpr, Piece.ofExprs]
    exact unary op (h.expr hright) (h.place hright) loc frame
  | binary left op right loc =>
    refine binaryExpr op (h.expr ?_) (h.expr ?_) loc frame <;>
      simp [Piece.children, Piece.ofExpr, Piece.ofExprs]
  | step op target loc =>
    have htarget : (Nesting.beside, Piece.expr target) ∈
        (Piece.expr (.step op target loc)).children := by
      simp [Piece.children, Piece.ofExpr, Piece.ofExprs]
    exact stepValue (step op (h.place htarget) frame) Prod.fst
      fun hxy => hxy.fst.eq_of_codeless
  | assign target op value loc =>
    refine assign op (h.place ?_) (h.expr ?_) loc frame <;>
      simp [Piece.children, Piece.ofExpr, Piece.ofExprs]
  | branch condition consequence alternative loc =>
    refine branch (h.expr ?_) (h.block fun s hs => ?_)
      (fun b hb => h.block fun s hs => ?_) frame
    · simp [Piece.children, Piece.ofExpr, Piece.ofExprs]
    · simp [Piece.children, Piece.ofExpr, Piece.mem_ofBlock, hs]
    · simp only [Piece.children, Piece.ofExpr, List.mem_append]
      exact Or.inr (Piece.mem_ofBlock?.mpr ⟨rfl, b, hb, s, hs, rfl⟩)
  | function f =>
    exact mapResult (makeFunction hkeeps frame) fun _ _ hf =>
      .map (f := Value.function) (fun _ _ => rfl) hf
  | arrow params body loc => exact makeArrow hkeeps.1 hkeeps.2 frame
  | call callee args loc =>
    refine callExpr (hsides trivial) (h.callee ?_) (h.elements fun e he => ?_) loc frame
    · simp [Piece.children, Piece.ofExpr, Piece.ofExprs]
    · simp [Piece.children, Piece.ofExpr, Piece.ofExprs, he]
  | array elements loc =>
    refine arrayLiteral (h.elements fun e he => ?_) frame
    simp [Piece.children, Piece.ofExpr, Piece.ofExprs, he]
  | index left i loc =>
    refine index (h.expr ?_) (h.expr ?_) loc frame <;>
      simp [Piece.children, Piece.ofExpr, Piece.ofExprs]
  | slice left start stop loc =>
    refine slice (h.expr ?_) (fun e he => h.expr ?_) (fun e he => h.expr ?_) loc
      frame
    · simp [Piece.children, Piece.ofExpr, Piece.ofExprs]
    · simp [Piece.children, Piece.ofExpr, Piece.ofExprs, Option.mem_def.mp he]
    · simp [Piece.children, Piece.ofExpr, Piece.ofExprs, Option.mem_def.mp he]
  | spread value loc => exact fail rfl loc
  | map entries loc =>
    refine mapLiteral (fun entry hentry => ⟨h.expr ?_, h.expr ?_⟩) frame <;>
      exact Piece.mem_ofExprs.mpr
        ⟨rfl, _, List.mem_flatMap.mpr ⟨entry, hentry, by simp⟩, rfl⟩
  | member object property loc =>
    refine member property (h.expr ?_) loc frame
    simp [Piece.children, Piece.ofExpr, Piece.ofExprs]
  | record struct fields loc =>
    refine recordLiteral struct (fun field hfield => h.expr ?_) frame
    exact Piece.mem_ofExprs.mpr
      ⟨rfl, _, List.mem_map.mpr ⟨field, hfield, rfl⟩, rfl⟩
  | whileLoop condition body loc =>
    refine whileLoop halike (h.expr ?_) (h.loopBody fun s hs => ?_)
      (fun hret => hret rfl) (fun hnever => hends hnever trivial) loc frame
    · simp [Piece.children, Piece.ofExpr, Piece.ofExprs]
    · simp [Piece.children, Piece.ofExpr, Piece.mem_ofBlock, hs]
  | forLoop header body loc =>
    refine forLoop halike (fun q hq => ?_) (h.loopBody fun s hs => ?_)
      (fun hret => hret rfl) ?_ loc frame
    · have hchild : (Nesting.beside, q) ∈
          (Piece.expr (.forLoop header body loc)).children :=
        List.mem_append_left _ hq
      cases q with
      | expr e => exact h.expr hchild
      | stmt s => exact h.stmt hchild
    · simp [Piece.children, Piece.ofExpr, Piece.mem_ofBlock, hs]
    · rintro ⟨start, condition, update, rfl⟩ hnever
      exact hends hnever trivial
  | switch subject cases default loc =>
    refine switch (h.expr ?_) (fun c hc => ⟨fun e he => h.expr ?_,
      h.block fun s hs => ?_⟩) (fun b hb => h.block fun s hs => ?_) frame
    · simp [Piece.children, Piece.ofExpr, Piece.ofExprs]
    · simp only [Piece.children, Piece.ofExpr, List.mem_append]
      exact Or.inl (Or.inl (Piece.mem_ofExprs.mpr ⟨rfl, e, List.mem_cons_of_mem _
        (List.mem_flatMap.mpr ⟨c, hc, he⟩), rfl⟩))
    · simp only [Piece.children, Piece.ofExpr, List.mem_append]
      exact Or.inl (Or.inr (List.mem_flatMap.mpr
        ⟨c, hc, Piece.mem_ofBlock.mpr ⟨rfl, s, hs, rfl⟩⟩))
    · simp only [Piece.children, Piece.ofExpr, List.mem_append]
      exact Or.inr (Piece.mem_ofBlock?.mpr ⟨rfl, b, hb, s, hs, rfl⟩)
  | ternary condition consequence alternative loc =>
    refine ternary (h.expr ?_) (h.expr ?_) (h.expr ?_) frame <;>
      simp [Piece.children, Piece.ofExpr, Piece.ofExprs]
  | range start stop loc =>
    refine range (h.expr ?_) (h.expr ?_) loc frame <;>
      simp [Piece.children, Piece.ofExpr, Piece.ofExprs]
  | attempt t =>
    refine attempt (h.block fun s hs => ?_) (fun b hb => h.block fun s hs => ?_)
      frame
    · simp [Piece.children, Piece.ofExpr, Piece.ofAttempt, Piece.mem_ofBlock, hs]
    · exact List.mem_append_right _
        (Piece.mem_ofBlock?.mpr ⟨rfl, b, hb, s, hs, rfl⟩)

theorem evalStmt (halike : r.Alike ev₁ ev₂) {s : Stmt}
    (h : r.FollowsWithin ev₁ ev₂ depth (.stmt s))
    (hkeeps : r.guard.Keeps (.stmt s)) (frame : FrameId) :
    r.Follows depth (Piece.HasJump · (.stmt s)) (ev₁.evalStmt frame s)
      (ev₂.evalStmt frame (s.relocate r.move)) := by
  cases s with
  | bind constant name type value loc =>
    refine declare constant name type (h.expr ?_) loc frame
    simp [Piece.children, Piece.ofStmt, Piece.ofExprs]
  | ret value loc =>
    refine leaveWith (fun e he => h.expr ?_) (.here rfl) frame
    simp [Piece.children, Piece.ofStmt, Piece.ofExprs, Option.mem_def.mp he]
  | includes modules grouped loc =>
    exact includeModules halike.library loc frame modules
  | attempt t =>
    refine attempt (h.block fun s hs => ?_) (fun b hb => h.block fun s hs => ?_)
      frame
    · simp [Piece.children, Piece.ofStmt, Piece.ofAttempt, Piece.mem_ofBlock, hs]
    · exact List.mem_append_right _
        (Piece.mem_ofBlock?.mpr ⟨rfl, b, hb, s, hs, rfl⟩)
  | struct name fields loc => exact declareStruct name fields frame
  | enum name variants loc => exact declareEnum name variants frame
  | method struct f loc => exact declareMethod struct hkeeps frame
  | brk loc =>
    refine leave ⟨rfl, rfl⟩ ?_
    rintro _ ⟨⟩
    exact .here rfl
  | cont loc =>
    refine leave ⟨rfl, rfl⟩ ?_
    rintro _ ⟨⟩
    exact .here rfl
  | expr e loc =>
    refine h.expr ?_ frame
    simp [Piece.children, Piece.ofStmt, Piece.ofExprs]

/-- A program takes up every jump of its statements. -/
theorem program {p : Program}
    (h : ∀ s ∈ p.statements, r.FollowsStmt ev₁ ev₂ depth anyJump s) :
    r.Follows depth noJump (ev₁.program p) (ev₂.program (p.relocate r.move)) :=
  mapResult (complete (statementsFrom h Arena.root ⟨rfl, rfl⟩)) fun _ _ hc =>
    .map (f := Completion.value) (fun _ _ => rfl) hc

end Follows

/-! ### One step more -/

/-- What can be called from code that may be anything. -/
theorem FollowsAll.sides (hall : r.FollowsAll ev₁ ev₂ depth)
    (hlimit : ev₁.settings.callLimit = ev₂.settings.callLimit ∨
      depth < ev₁.settings.callLimit ∧ depth < ev₂.settings.callLimit)
    (hnext : depth < ev₁.settings.callLimit → r.FollowsAll ev₁ ev₂ (depth + 1))
    (hrefused : ev₁.settings.callLimit ≤ depth → ∀ name,
      r.guard.refusal ev₁.settings.callLimit name =
        .recursionDepth ev₁.settings.callLimit name) (n : Nat) :
    r.Sides ev₁ ev₂ depth n where
  limit := hlimit
  function hdepth _ _ s _ frame :=
    ((hnext hdepth).piece (.stmt s) frame).weaken fun _ _ => trivial
  arrow hdepth body _ frame :=
    ((hnext hdepth).piece (.expr body) frame).weaken fun _ _ => trivial
  refused := hrefused
  apply := hall.apply n

/-- Only what evaluators give for tasks matters. -/
theorem FollowsAll.of_run (h : r.FollowsAll ev₁ ev₂ depth) {ev₁' ev₂' : Evaluator}
    (hrun₁ : ev₁'.run = ev₁.run) (hrun₂ : ev₂'.run = ev₂.run) :
    r.FollowsAll ev₁' ev₂' depth where
  piece p := by
    have hp := h.piece p
    cases p with
    | expr e =>
      intro frame
      unfold Evaluator.expr
      rw [hrun₁, hrun₂]
      exact hp frame
    | stmt s =>
      intro frame
      unfold Evaluator.stmt
      rw [hrun₁, hrun₂]
      exact hp frame
  apply n := by
    intro callee callee' args args' loc hcallee hargs hlt
    unfold Evaluator.apply
    rw [hrun₁, hrun₂]
    exact h.apply n loc hcallee hargs hlt

/-- Where everything inside follows, and in calls the bodies do so one call
further in, evaluators with one step more follow as well. -/
theorem FollowsAll.next (hall : r.FollowsAll ev₁ ev₂ depth)
    {ev₁' ev₂' : Evaluator} (hrun₁ : ev₁'.run = ev₁.evalTask)
    (hrun₂ : ev₂'.run = ev₂.evalTask) (hkeeps : ∀ p, r.guard.Keeps p)
    (hstop : r.stopping ≠ .never) (halike : r.Alike ev₁ ev₂)
    (hsides : ∀ n, r.Sides ev₁ ev₂ depth n) :
    r.FollowsAll ev₁' ev₂' depth where
  piece p := by
    have hwithin : r.FollowsWithin ev₁ ev₂ depth p := fun q _ => hall.piece q
    cases p with
    | expr e =>
      intro frame
      unfold Evaluator.expr
      rw [hrun₁, hrun₂]
      exact .evalExpr halike (fun _ => hsides 3) hwithin (hkeeps _)
        (fun h => (hstop h).elim) frame
    | stmt s =>
      intro frame
      unfold Evaluator.stmt
      rw [hrun₁, hrun₂]
      exact .evalStmt halike hwithin (hkeeps _) frame
  apply n := by
    intro callee callee' args args' loc hcallee hargs _
    unfold Evaluator.apply
    rw [hrun₁, hrun₂]
    exact .callAny (hsides 3) hcallee hargs loc

/-- Where nothing is guarded against, everything follows from one bound to the same
one, or to a larger one if only the first run may come to its end. -/
theorem FollowsAll.bounded (hkeeps : ∀ p, r.guard.Keeps p)
    (hrefusal : r.guard.refusal = .recursionDepth) (hstop : r.stopping ≠ .never)
    {settings₁ settings₂ : Settings}
    (hlimit : settings₁.callLimit = settings₂.callLimit)
    (hlibrary : ∀ name,
      r.Related (settings₁.library name) (settings₂.library name))
    {n n' : Nat} (hn : r.BoundLeft n n') (depth : Nat) :
    r.FollowsAll (.bounded settings₁ n) (.bounded settings₂ n') depth := by
  induction n generalizing n' depth with
  | zero =>
    have hend : ∀ task, r.Follows depth noJump (Eval.outOfBound : Eval Value)
        (evaluate settings₂ n' task) := fun task =>
      Follows.atBound hn hstop (c := fun n' => evaluate settings₂ n' task) rfl
    refine ⟨fun p => ?_, fun n callee callee' args args' loc _ _ _ => hend _⟩
    cases p with
    | expr e => exact fun frame => (hend _).weaken nofun
    | stmt s => exact fun frame => (hend _).weaken nofun
  | succ n ih =>
    obtain ⟨k, rfl, hk⟩ := hn.pred
    refine (ih hk depth).next rfl rfl hkeeps hstop ⟨hlibrary, hk⟩ fun n => ?_
    exact (ih hk depth).sides (Or.inl hlimit) (fun _ => ih hk (depth + 1))
      (fun _ _ => by rw [hrefusal]) n

theorem FollowsAll.program (h : r.FollowsAll ev₁ ev₂ depth) (p : Program) :
    r.Follows depth noJump (ev₁.program p) (ev₂.program (p.relocate r.move)) :=
  .program fun s _ frame => (h.piece (.stmt s) frame).weaken fun _ _ => trivial

end Comparison

end Script
