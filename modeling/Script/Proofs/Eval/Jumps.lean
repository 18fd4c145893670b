import Script.Proofs.Eval.Identical

/-!
# Jumps stay where they belong

A `return`, a `break` or a `continue` leaves an expression or a statement only if
it is written there, and not in a function inside, nor, for the last two, in the
body of a loop inside.  So no jump leaves a call, of whatever kind, and what the
body of a loop does to leave its round is seen by that loop and by no other.
-/

namespace Script

open Scope (FrameId)
open Comparison

/-- Only these jumps leave a computation; it may also fail. -/
def Outcome.LeftOnlyBy {α : Type} (jumps : Jump → Prop) : Outcome α → Prop
  | .left exit _ => ∀ j, exit.jump? = some j → jumps j
  | _ => True

theorem Comparison.Matches.leftOnlyBy {α : Type} [Recodable α] {r : Comparison}
    {depth : Nat} {jumps : Jump → Prop} {o₁ o₂ : Outcome α}
    (h : r.Matches depth jumps o₁ o₂) : o₁.LeftOnlyBy jumps := by
  cases h with
  | done | exhausted => trivial
  | left _ hjumps _ => exact hjumps

theorem Outcome.LeftOnlyBy.mono {α : Type} {jumps jumps' : Jump → Prop}
    {o : Outcome α} (h : o.LeftOnlyBy jumps) (hjumps : ∀ j, jumps j → jumps' j) :
    o.LeftOnlyBy jumps' := by
  cases o with
  | left exit m => exact fun j hj => hjumps j (h j hj)
  | _ => trivial

/-! ### Jumps out of loops -/

/-- What can lead out of a loop with such a body: the `return`s in it. -/
def Block.Returns (body : Block) (j : Jump) : Prop :=
  j = .ret ∧ ∃ s ∈ body.statements, Piece.HasJump .ret (.stmt s)

namespace Piece

theorem returns_of_body {j : Jump} {body : Block} {nesting : Nesting} {p : Piece}
    (h : (nesting, p) ∈ ofBlock .loopBody body) (hpasses : nesting.passes j)
    (hp : HasJump j p) : body.Returns j := by
  obtain ⟨rfl, s, hs, rfl⟩ := mem_ofBlock.mp h
  obtain rfl : j = .ret := by simpa [Nesting.passes] using hpasses
  exact ⟨rfl, s, hs, hp⟩

/-- A jump leads out of a `while` loop from its condition, or as a `return` from
its body. -/
theorem HasJump.of_while {j : Jump} {condition : Expr} {body : Block}
    {loc : Location} (h : HasJump j (expr (.whileLoop condition body loc))) :
    HasJump j (expr condition) ∨ body.Returns j := by
  cases h with
  | inside h hpasses hp =>
    rcases List.mem_append.mp h with h | h
    · obtain ⟨-, e, he, rfl⟩ := mem_ofExprs.mp h
      rw [List.mem_singleton.mp he] at hp
      exact Or.inl hp
    · exact Or.inr (returns_of_body h hpasses hp)

/-- A jump leads out of a `for` loop from its header, or as a `return` from its
body. -/
theorem HasJump.of_for {j : Jump} {header : LoopHeader} {body : Block}
    {loc : Location} (h : HasJump j (expr (.forLoop header body loc))) :
    (∃ nesting p, (nesting, p) ∈ ofHeader header ∧ HasJump j p) ∨
      body.Returns j := by
  cases h with
  | @inside nesting p _ h hpasses hp =>
    rcases List.mem_append.mp h with h | h
    · exact Or.inl ⟨nesting, p, h, hp⟩
    · exact Or.inr (returns_of_body h hpasses hp)

end Piece

/-! ### Runs -/

section

variable (settings : Settings) (bound : Nat) (m : Machine)

theorem evaluation_sides (n : Nat) :
    (identical .together).Sides (.bounded settings bound)
      (.bounded settings bound) m.callDepth n :=
  (identical.followsAll_self settings bound m.callDepth).sides (Or.inl rfl)
    (fun _ => identical.followsAll_self settings bound (m.callDepth + 1))
    (fun _ _ => rfl) n

theorem leftOnlyBy_evaluate (task : Task) :
    (evaluate settings bound task m).LeftOnlyBy task.Jumps :=
  have hall := identical.followsAll_self settings bound m.callDepth
  (identical.followsAll_iff.mp hall task m rfl).leftOnlyBy

theorem leftOnlyBy_callFunction (f : Closure) (args : List Value)
    (receiver : Option Value) (loc : Location) :
    ((Evaluator.bounded settings bound).callFunction f args receiver loc
      m).LeftOnlyBy noJump :=
  (Follows.callFunction (evaluation_sides settings bound m 0)
    (identical.related_self f) (identical.related_self args)
    (identical.related_self receiver) loc m m
    (identical.agree_self m)).leftOnlyBy

theorem followsBlock_returns (body : Block) :
    (identical .together).FollowsBlock (.bounded settings bound)
      (.bounded settings bound) m.callDepth (fun j => j = .ret → body.Returns .ret)
      body := fun s hs frame =>
  have hall := identical.followsAll_self settings bound m.callDepth
  (hall.piece (.stmt s) frame).weaken fun _ hj hret => ⟨rfl, s, hs, hret ▸ hj⟩

theorem leftOnlyBy_round (body : Block) (frame : FrameId) :
    ((Evaluator.bounded settings bound).round body frame m).LeftOnlyBy
      body.Returns :=
  (Follows.round (followsBlock_returns settings bound m body)
    (fun hret => hret rfl) frame m m (identical.agree_self m)).leftOnlyBy

theorem leftOnlyBy_roundWith (names : LoopNames) (body : Block) (frame : FrameId)
    (keyed : Bool) (key value : Value) :
    ((Evaluator.bounded settings bound).roundWith names body frame keyed key value
      m).LeftOnlyBy body.Returns :=
  (Follows.roundWith (followsBlock_returns settings bound m body)
    (fun hret => hret rfl) names frame keyed (identical.related_self key)
    (identical.related_self value) m m (identical.agree_self m)).leftOnlyBy

end

/-- Whatever jump leaves an expression or a statement is written in it, outside
of the functions inside, and a `break` or a `continue` also outside of the bodies
of the loops inside.  So no jump leaves a call of a function, an arrow, a method or
a built-in function, a `return` is all that leads from the body of a loop out of its
round, and out of the whole loop there leads, apart from that, what is written in
its header. -/
theorem jumps_stay_inside (settings : Settings) (bound : Nat) (m : Machine) :
    (∀ e frame, (evaluate settings bound (.expr e frame) m).LeftOnlyBy
      (Piece.HasJump · (.expr e))) ∧
    (∀ s frame, (evaluate settings bound (.stmt s frame) m).LeftOnlyBy
      (Piece.HasJump · (.stmt s))) ∧
    (∀ callee args loc,
      (evaluate settings bound (.apply callee args loc) m).LeftOnlyBy noJump) ∧
    (∀ f args receiver loc,
      ((Evaluator.bounded settings bound).callFunction f args receiver loc
        m).LeftOnlyBy noJump) ∧
    (∀ body frame,
      ((Evaluator.bounded settings bound).round body frame m).LeftOnlyBy
        body.Returns) ∧
    (∀ names body frame keyed key value,
      ((Evaluator.bounded settings bound).roundWith names body frame keyed key
        value m).LeftOnlyBy body.Returns) ∧
    (∀ condition body loc frame,
      (evaluate settings bound (.expr (.whileLoop condition body loc) frame)
        m).LeftOnlyBy
          fun j => Piece.HasJump j (.expr condition) ∨ body.Returns j) ∧
    (∀ header body loc frame,
      (evaluate settings bound (.expr (.forLoop header body loc) frame)
        m).LeftOnlyBy
          fun j => (∃ nesting p, (nesting, p) ∈ Piece.ofHeader header ∧
            Piece.HasJump j p) ∨ body.Returns j) := by
  have htask := leftOnlyBy_evaluate settings bound m
  refine ⟨fun e frame => htask (.expr e frame), fun s frame => htask (.stmt s frame),
    fun callee args loc => htask (.apply callee args loc),
    leftOnlyBy_callFunction settings bound m, leftOnlyBy_round settings bound m,
    leftOnlyBy_roundWith settings bound m, fun condition body loc frame => ?_,
    fun header body loc frame => ?_⟩
  · exact (htask (.expr (.whileLoop condition body loc) frame)).mono
      fun _ hj => hj.of_while
  · exact (htask (.expr (.forLoop header body loc) frame)).mono
      fun _ hj => hj.of_for

end Script
