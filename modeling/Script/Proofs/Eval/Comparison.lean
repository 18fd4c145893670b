import Script.Proofs.Eval.Notes
import Script.Proofs.Syntax.Pieces
import Script.Proofs.Syntax.Relocation
import Script.Proofs.Value.Questions

/-!
# Two runs side by side

A comparison is about two runs of the same code, in which the second one may have
other locations.  It says what the machines have in common at each moment, which
code there may be in them, and what it means if the first run comes to the end
of its bound.  One computation `Follows` another one if from machines that agree
it ends in the same way and in machines that agree.  A computation put together
from computations that follow does so too.
-/

namespace Script

open Std (ExtTreeMap)
open Scope (Arena Binding FrameId)

/-- Moves the locations of all code. -/
def Recoding.relocation (move : Location → Location) : Recoding where
  loc := move
  function := Function.relocate move
  params := List.map (Name.relocate move)
  body := Expr.relocate move
  refusal := .recursionDepth
  function_name f := by cases f; rfl
  function_params f := by
    obtain ⟨name, params, returns, body, loc⟩ := f
    cases params <;> simp [Function.relocate, Params.relocate, Params.names,
      Name.relocate, TypedName.relocate, Function.comp_def]
  params_text names := by simp [Name.relocate, Function.comp_def]

/-- Nothing changes if nothing is moved. -/
theorem recode_relocation_id (v : Value) : recode (.relocation id) v = v := by
  cases v with
  | function f =>
    change Value.function ⟨f.id, f.code.relocate id, f.frame⟩ = _
    rw [Function.relocate_id]
  | arrow f =>
    change Value.arrow ⟨f.id, f.params.map (Name.relocate id), f.body.relocate id,
      f.frame⟩ = _
    rw [Name.map_relocate_id, Expr.relocate_id]
  | _ => rfl

/-! ### Comparisons -/

/-- Whether a run may come to the end of its bound. -/
inductive Leeway where
  /-- It may not. -/
  | never
  /-- Only if the other run does so too. -/
  | together
  | alone

/-- Whether a run may come to the end of its bound, given what the other one
does. -/
def Leeway.Admits : Leeway → (other : Prop) → Prop
  | never, _ => False
  | together, other => other
  | alone, _ => True

theorem Leeway.Admits.imp {leeway : Leeway} {p q : Prop}
    (h : leeway.Admits p) (hpq : p → q) : leeway.Admits q := by
  cases leeway with
  | never => exact h
  | together => exact hpq h
  | alone => trivial

structure Comparison where
  /-- Where the second run has the locations of the first one. -/
  move : Location → Location
  /-- Code that this would change is not in the machines. -/
  guard : Recoding
  guard_loc : guard.loc = id
  /-- Whether the machines also agree on what is noticed. -/
  exact : Prop
  exact_move : exact → move = id
  /-- What has been printed before the runs. -/
  printed : String × String
  /-- Whether the first run may come to the end of its bound. -/
  stopping : Leeway
  /-- Where the second run may notice something. -/
  placed : Option Location → Prop := fun _ => True
  placed_move : ∀ loc, placed (some (move loc)) := by exact fun _ => trivial

/-- Locations that stay where they are. -/
theorem Comparison.stays {exact : Prop} : exact → (id : Location → Location) = id :=
  fun _ => rfl

/-- The jump that leaves a computation. -/
def Exit.jump? : Exit → Option Jump
  | .returned _ => some .ret
  | .broke => some .brk
  | .continued => some .cont
  | .failed .. => none

def recodeExit (ρ : Recoding) : Exit → Exit
  | .returned v => .returned (recode ρ v)
  | .broke => .broke
  | .continued => .continued
  | .failed problem loc => .failed (recode ρ problem) (ρ.loc loc)

instance : Recodable Exit := ⟨recodeExit⟩

instance : Codeless FrameId := inferInstanceAs (Codeless Nat)

instance : Recodable Completion :=
  ⟨fun ρ c => { c with value := recode ρ c.value }⟩

namespace Comparison

variable (r : Comparison)

/-- The second one is the first one with its locations moved, and there is only
code in it that may be there. -/
structure Related {α : Type} [Recodable α] (x y : α) : Prop where
  moved : recode (.relocation r.move) x = y
  guarded : recode r.guard x = x

/-- What two machines have in common at a given depth of calls. -/
structure Agree (depth : Nat) (m₁ m₂ : Machine) : Prop where
  scopes : r.Related m₁.scopes m₂.scopes
  heap : r.Related m₁.heap m₂.heap
  input : m₁.input = m₂.input
  output : ∃ text, m₁.output = r.printed.1 ++ text ∧
    m₂.output = r.printed.2 ++ text
  firstDepth : m₁.callDepth = depth
  secondDepth : m₂.callDepth = depth
  noticed : r.exact → m₁.advisories = m₂.advisories ∧
    m₁.source = m₂.source ∧ m₁.loopDepth = m₂.loopDepth
  placed : ∀ d ∈ m₂.advisories, r.placed d.location?

/-- The second outcome is that of the first run, which is left only by the given
jumps or by a failure. -/
inductive Matches {α : Type} [Recodable α] (depth : Nat) (jumps : Jump → Prop) :
    Outcome α → Outcome α → Prop where
  | done {x y : α} {m₁ m₂ : Machine} (hvalue : r.Related x y)
      (hagree : r.Agree depth m₁ m₂) :
      Matches depth jumps (.done x m₁) (.done y m₂)
  | left {e₁ e₂ : Exit} {m₁ m₂ : Machine} (hexit : r.Related e₁ e₂)
      (hjumps : ∀ j, e₁.jump? = some j → jumps j)
      (hagree : r.Agree depth m₁ m₂) :
      Matches depth jumps (.left e₁ m₁) (.left e₂ m₂)
  | exhausted {o : Outcome α} (hstop : r.stopping.Admits (o = .exhausted)) :
      Matches depth jumps .exhausted o

def Follows {α : Type} [Recodable α] (depth : Nat) (jumps : Jump → Prop)
    (c₁ c₂ : Eval α) : Prop :=
  ∀ m₁ m₂, r.Agree depth m₁ m₂ → r.Matches depth jumps (c₁ m₁) (c₂ m₂)

end Comparison

/-- Every jump. -/
def anyJump (_ : Jump) : Prop := True

/-- No jump at all. -/
def noJump (_ : Jump) : Prop := False

variable {r : Comparison} {depth : Nat} {jumps : Jump → Prop}

namespace Comparison

/-! ### Related values -/

namespace Related

variable {α β γ δ : Type} [Recodable α] [Recodable β] [Recodable γ] [Recodable δ]

theorem codeless {α : Type} [Codeless α] (x : α) : r.Related x x := ⟨rfl, rfl⟩

theorem eq_of_codeless {α : Type} [Codeless α] {x y : α} (h : r.Related x y) :
    x = y :=
  h.moved

theorem map {f : α → β} (hf : ∀ ρ x, f (recode ρ x) = recode ρ (f x)) {x y : α}
    (h : r.Related x y) : r.Related (f x) (f y) where
  moved := by rw [← h.moved, hf]
  guarded := by rw [← hf, h.guarded]

theorem map₂ {f : α → β → γ}
    (hf : ∀ ρ x y, f (recode ρ x) (recode ρ y) = recode ρ (f x y)) {x x' : α}
    {y y' : β} (hx : r.Related x x') (hy : r.Related y y') :
    r.Related (f x y) (f x' y') where
  moved := by rw [← hx.moved, ← hy.moved, hf]
  guarded := by rw [← hf, hx.guarded, hy.guarded]

theorem map₃ {f : α → β → γ → δ}
    (hf : ∀ ρ x y z, f (recode ρ x) (recode ρ y) (recode ρ z) =
      recode ρ (f x y z)) {x x' : α} {y y' : β} {z z' : γ}
    (hx : r.Related x x') (hy : r.Related y y') (hz : r.Related z z') :
    r.Related (f x y z) (f x' y' z') where
  moved := by rw [← hx.moved, ← hy.moved, ← hz.moved, hf]
  guarded := by rw [← hf, hx.guarded, hy.guarded, hz.guarded]

theorem pair {x x' : α} {y y' : β} (hx : r.Related x x')
    (hy : r.Related y y') : r.Related (x, y) (x', y') :=
  map₂ (fun _ _ _ => rfl) hx hy

theorem fst {x y : α × β} (h : r.Related x y) : r.Related x.1 y.1 :=
  map (f := Prod.fst) (fun _ _ => rfl) h

theorem snd {x y : α × β} (h : r.Related x y) : r.Related x.2 y.2 :=
  map (f := Prod.snd) (fun _ _ => rfl) h

theorem nil : r.Related ([] : List α) [] := ⟨rfl, rfl⟩

theorem cons {x x' : α} {xs xs' : List α} (hx : r.Related x x')
    (hxs : r.Related xs xs') : r.Related (x :: xs) (x' :: xs') :=
  map₂ (fun _ _ _ => rfl) hx hxs

theorem of_cons {x : α} {xs ys : List α} (h : r.Related (x :: xs) ys) :
    ∃ y ys', ys = y :: ys' ∧ r.Related x y ∧ r.Related xs ys' := by
  obtain ⟨rfl, hguarded⟩ := h
  obtain ⟨hx, hxs⟩ := List.cons.inj hguarded
  exact ⟨_, _, rfl, ⟨rfl, hx⟩, ⟨rfl, hxs⟩⟩

/-- Related lists are both empty or have related heads and tails. -/
theorem cases_list {xs ys : List α} (h : r.Related xs ys) :
    (xs = [] ∧ ys = []) ∨ ∃ x xs' y ys', xs = x :: xs' ∧ ys = y :: ys' ∧
      r.Related x y ∧ r.Related xs' ys' := by
  cases xs with
  | nil => exact Or.inl ⟨rfl, h.moved.symm⟩
  | cons x xs =>
    obtain ⟨y, ys', rfl, hx, hxs⟩ := h.of_cons
    exact Or.inr ⟨x, xs, y, ys', rfl, rfl, hx, hxs⟩

theorem length_eq {xs ys : List α} (h : r.Related xs ys) :
    xs.length = ys.length := by
  rw [← h.moved, length_recode]

/-- Related options are both empty or have related contents. -/
theorem cases_option {x y : Option α} (h : r.Related x y) :
    (x = none ∧ y = none) ∨ ∃ x' y', x = some x' ∧ y = some y' ∧
      r.Related x' y' := by
  obtain ⟨rfl, hguarded⟩ := h
  cases x with
  | none => exact Or.inl ⟨rfl, rfl⟩
  | some x => exact Or.inr ⟨x, _, rfl, rfl, rfl, Option.some.inj hguarded⟩

theorem some {x y : α} (h : r.Related x y) :
    r.Related (some x) (Option.some y) :=
  map (fun _ _ => rfl) h

theorem none : r.Related (none : Option α) Option.none := ⟨rfl, rfl⟩

theorem toList {xs ys : Array α} (h : r.Related xs ys) :
    r.Related xs.toList ys.toList :=
  map recode_toList h

theorem push {xs ys : Array α} {x y : α} (hxs : r.Related xs ys)
    (hx : r.Related x y) : r.Related (xs.push x) (ys.push y) :=
  map₂ (fun ρ xs x => Heap.push_recode ρ xs x) hxs hx

theorem empty : r.Related (#[] : Array α) #[] :=
  ⟨Array.map_empty, Array.map_empty⟩

theorem emptyTable {κ : Type} [Ord κ] :
    r.Related (∅ : ExtTreeMap κ α) ∅ := ⟨rfl, rfl⟩

end Related

theorem recode_relocation_problem (move : Location → Location) (p : Problem) :
    recode (.relocation move) p = p := by
  cases p <;> rfl

/-- A problem is the same in both runs. -/
theorem Related.problem_eq {p q : Problem} (h : r.Related p q) : p = q :=
  (recode_relocation_problem r.move p).symm.trans h.moved

theorem related_failed {p : Problem} (h : recode r.guard p = p)
    (loc : Location) :
    r.Related (Exit.failed p loc) (.failed p (r.move loc)) where
  moved := congrArg (Exit.failed · (r.move loc))
    (recode_relocation_problem r.move p)
  guarded := by
    change Exit.failed (recode r.guard p) (r.guard.loc loc) = _
    rw [h, r.guard_loc]
    rfl

theorem related_returned {v w : Value} (h : r.Related v w) :
    r.Related (Exit.returned v) (.returned w) :=
  Related.map (fun _ _ => rfl) h

/-! ### Machines that agree -/

namespace Agree

variable {m₁ m₂ : Machine}

theorem withHeap (h : r.Agree depth m₁ m₂) {heap₁ heap₂ : Heap}
    (hheap : r.Related heap₁ heap₂) :
    r.Agree depth { m₁ with heap := heap₁ } { m₂ with heap := heap₂ } :=
  { h with heap := hheap }

theorem withScopes (h : r.Agree depth m₁ m₂) {scopes₁ scopes₂ : Arena Value}
    (hscopes : r.Related scopes₁ scopes₂) :
    r.Agree depth { m₁ with scopes := scopes₁ }
      { m₂ with scopes := scopes₂ } :=
  { h with scopes := hscopes }

theorem withInput (h : r.Agree depth m₁ m₂) (input : List Char) :
    r.Agree depth { m₁ with input } { m₂ with input } :=
  { h with input := rfl }

theorem printing (h : r.Agree depth m₁ m₂) (text : String) :
    r.Agree depth { m₁ with output := m₁.output ++ text }
      { m₂ with output := m₂.output ++ text } := by
  obtain ⟨before, hfirst, hsecond⟩ := h.output
  refine { h with output := ⟨before ++ text, ?_, ?_⟩ }
  · rw [← String.append_assoc, ← hfirst]
  · rw [← String.append_assoc, ← hsecond]

theorem noting (h : r.Agree depth m₁ m₂) {noted₁ noted₂ : Advisories}
    (hnoted : r.exact → noted₁ = noted₂)
    (hplaced : ∀ d ∈ noted₂, r.placed d.location?) :
    r.Agree depth { m₁ with advisories := noted₁ }
      { m₂ with advisories := noted₂ } :=
  { h with
    noticed := fun hexact => ⟨hnoted hexact, (h.noticed hexact).2⟩
    placed := hplaced }

/-- What is noticed where the first run has a location is noticed where it may be. -/
theorem placed_noted (h : r.Agree depth m₁ m₂) (problem : Problem) (loc : Location) :
    ∀ d ∈ Eval.noted problem (r.move loc) m₂, r.placed d.location? := by
  intro d hd
  rcases Eval.mem_noted hd with hd | hloc
  · exact h.placed d hd
  · rw [hloc]
    exact r.placed_move loc

theorem noted_eq (h : r.Agree depth m₁ m₂) (hexact : r.exact)
    (problem : Problem) (loc : Location) :
    Eval.noted problem loc m₁ = Eval.noted problem loc m₂ := by
  obtain ⟨hadvisories, hsource, -⟩ := h.noticed hexact
  simp only [Eval.noted, hadvisories, hsource]

theorem intoCall (h : r.Agree depth m₁ m₂) :
    r.Agree (depth + 1) { m₁ with callDepth := depth + 1 }
      { m₂ with callDepth := depth + 1 } :=
  { h with firstDepth := rfl, secondDepth := rfl }

theorem outOfCall (h : r.Agree (depth + 1) m₁ m₂) :
    r.Agree depth { m₁ with callDepth := m₁.callDepth - 1 }
      { m₂ with callDepth := m₂.callDepth - 1 } :=
  { h with
    firstDepth := congrArg (· - 1) h.firstDepth
    secondDepth := congrArg (· - 1) h.secondDepth }

theorem intoLoop (h : r.Agree depth m₁ m₂) (loc : Location) :
    r.Agree depth (m₁.enterLoop loc) (m₂.enterLoop (r.move loc)) := by
  refine { h with noticed := fun hexact => ?_, placed := ?_ }
  · obtain ⟨hadvisories, hsource, hloops⟩ := h.noticed hexact
    rw [r.exact_move hexact]
    simp only [Machine.enterLoop, hloops, hadvisories, hsource,
      h.noted_eq hexact, id]
    exact ⟨trivial, trivial, trivial⟩
  · dsimp only [Machine.enterLoop]
    split
    · exact h.placed_noted _ loc
    · exact h.placed

theorem outOfLoop (h : r.Agree depth m₁ m₂) :
    r.Agree depth { m₁ with loopDepth := m₁.loopDepth - 1 }
      { m₂ with loopDepth := m₂.loopDepth - 1 } := by
  refine { h with noticed := fun hexact => ?_ }
  obtain ⟨hadvisories, hsource, hloops⟩ := h.noticed hexact
  exact ⟨hadvisories, hsource, congrArg (· - 1) hloops⟩

end Agree

end Comparison

open Comparison

/-! ### Outcomes that match -/

namespace Comparison.Matches

variable {α β : Type} [Recodable α] [Recodable β]

theorem weaken {o₁ o₂ : Outcome α} {jumps' : Jump → Prop}
    (h : r.Matches depth jumps o₁ o₂) (hjumps : ∀ j, jumps j → jumps' j) :
    r.Matches depth jumps' o₁ o₂ := by
  cases h with
  | done hvalue hagree => exact .done hvalue hagree
  | left hexit hleft hagree =>
    exact .left hexit (fun j hj => hjumps j (hleft j hj)) hagree
  | exhausted hstop => exact .exhausted hstop

/-- What is done at the end of a computation, however it ends. -/
theorem ending {depth' : Nat} {c₁ c₂ : Eval α} {last₁ last₂ : Machine → Machine}
    {m₁ m₂ : Machine} (h : r.Matches depth' jumps (c₁ m₁) (c₂ m₂))
    (hlast : ∀ m₁ m₂, r.Agree depth' m₁ m₂ →
      r.Agree depth (last₁ m₁) (last₂ m₂)) :
    r.Matches depth jumps (Eval.ending c₁ last₁ m₁)
      (Eval.ending c₂ last₂ m₂) := by
  unfold Eval.ending
  generalize c₁ m₁ = o₁ at h
  generalize c₂ m₂ = o₂ at h
  cases h with
  | done hvalue hagree => exact .done hvalue (hlast _ _ hagree)
  | left hexit hjumps hagree => exact .left hexit hjumps (hlast _ _ hagree)
  | exhausted hstop => exact .exhausted (hstop.imp fun h => by rw [h])

end Comparison.Matches

namespace Comparison.Follows

variable {α β : Type} [Recodable α] [Recodable β]

theorem weaken {c₁ c₂ : Eval α} {jumps' : Jump → Prop}
    (h : r.Follows depth jumps c₁ c₂) (hjumps : ∀ j, jumps j → jumps' j) :
    r.Follows depth jumps' c₁ c₂ :=
  fun m₁ m₂ hagree => (h m₁ m₂ hagree).weaken hjumps

/-! ### Computations without parts -/

theorem pure {x y : α} (h : r.Related x y) :
    r.Follows depth jumps (Pure.pure x) (Pure.pure y) :=
  fun _ _ hagree => .done h hagree

theorem leave {e₁ e₂ : Exit} (h : r.Related e₁ e₂)
    (hjumps : ∀ j, e₁.jump? = some j → jumps j) :
    r.Follows depth jumps (Eval.leave e₁ : Eval α) (Eval.leave e₂) :=
  fun _ _ hagree => .left h hjumps hagree

theorem fail {p : Problem} (h : recode r.guard p = p) (loc : Location) :
    r.Follows depth jumps (Eval.fail p loc : Eval α)
      (Eval.fail p (r.move loc)) :=
  leave (related_failed h loc) nofun

theorem outOfBound (h : r.stopping ≠ .never) :
    r.Follows depth jumps (Eval.outOfBound : Eval α) Eval.outOfBound := by
  intro _ _ _
  refine .exhausted ?_
  cases hstop : r.stopping with
  | never => exact (h hstop).elim
  | together => rfl
  | alone => trivial

theorem read {f g : Machine → α}
    (h : ∀ m₁ m₂, r.Agree depth m₁ m₂ → r.Related (f m₁) (g m₂)) :
    r.Follows depth jumps (Eval.read f) (Eval.read g) :=
  fun m₁ m₂ hagree => .done (h m₁ m₂ hagree) hagree

theorem askHeap {loc : Location} {f g : Heap → Except Problem α}
    (h : ∀ h₁ h₂, r.Related h₁ h₂ → r.Related (f h₁) (g h₂)) :
    r.Follows depth jumps (Eval.askHeap loc f)
      (Eval.askHeap (r.move loc) g) := by
  intro m₁ m₂ hagree
  obtain ⟨hmoved, hguarded⟩ := h m₁.heap m₂.heap hagree.heap
  unfold Eval.askHeap
  cases hanswer : f m₁.heap with
  | ok x =>
    rw [hanswer] at hmoved hguarded
    rw [← hmoved]
    exact .done ⟨rfl, Except.ok.inj hguarded⟩ hagree
  | error p =>
    rw [hanswer] at hmoved hguarded
    rw [← hmoved]
    refine .left ?_ nofun hagree
    rw [recode_relocation_problem]
    exact related_failed (Except.error.inj hguarded) loc

theorem onHeap {f g : Heap → α × Heap}
    (h : ∀ h₁ h₂, r.Related h₁ h₂ → r.Related (f h₁) (g h₂)) :
    r.Follows depth jumps (Eval.onHeap f) (Eval.onHeap g) := by
  intro m₁ m₂ hagree
  have hpair := h m₁.heap m₂.heap hagree.heap
  exact .done hpair.fst (hagree.withHeap hpair.snd)

theorem onScopes {f g : Arena Value → Arena Value}
    (h : ∀ a₁ a₂, r.Related a₁ a₂ → r.Related (f a₁) (g a₂)) :
    r.Follows depth jumps (Eval.onScopes f) (Eval.onScopes g) :=
  fun _ _ hagree =>
    .done (.codeless ()) (hagree.withScopes (h _ _ hagree.scopes))

theorem print (text : String) :
    r.Follows depth jumps (Eval.print text) (Eval.print text) :=
  fun _ _ hagree => .done (.codeless ()) (hagree.printing text)

theorem readLine : r.Follows depth jumps Eval.readLine Eval.readLine := by
  intro m₁ m₂ hagree
  unfold Eval.readLine
  rw [hagree.input]
  exact .done (.codeless _) (hagree.withInput _)

/-! ### Computations one after another -/

theorem bind {c₁ c₂ : Eval α} {f₁ f₂ : α → Eval β}
    (hc : r.Follows depth jumps c₁ c₂)
    (hf : ∀ x y, r.Related x y → r.Follows depth jumps (f₁ x) (f₂ y)) :
    r.Follows depth jumps (c₁ >>= f₁) (c₂ >>= f₂) := by
  intro m₁ m₂ hagree
  change r.Matches depth jumps (Eval.bind c₁ f₁ m₁) (Eval.bind c₂ f₂ m₂)
  unfold Eval.bind
  generalize hfirst : c₁ m₁ = o₁
  generalize hsecond : c₂ m₂ = o₂
  have hmatch := hc m₁ m₂ hagree
  rw [hfirst, hsecond] at hmatch
  cases hmatch with
  | done hvalue hagree' => exact hf _ _ hvalue _ _ hagree'
  | left hexit hjumps hagree' => exact .left hexit hjumps hagree'
  | exhausted hstop => exact .exhausted (hstop.imp fun h => by rw [h])

/-- A first step whose result has no code in it. -/
theorem bindPlain {γ : Type} [Codeless γ] {c₁ c₂ : Eval γ} {f₁ f₂ : γ → Eval β}
    (hc : r.Follows depth jumps c₁ c₂)
    (hf : ∀ x, r.Follows depth jumps (f₁ x) (f₂ x)) :
    r.Follows depth jumps (c₁ >>= f₁) (c₂ >>= f₂) :=
  bind hc fun x y hxy => by
    cases hxy.eq_of_codeless
    exact hf x

/-- A last step that only puts the result together. -/
theorem mapResult {c₁ c₂ : Eval α} {f₁ f₂ : α → β}
    (hc : r.Follows depth jumps c₁ c₂)
    (hf : ∀ x y, r.Related x y → r.Related (f₁ x) (f₂ y)) :
    r.Follows depth jumps (do return f₁ (← c₁)) (do return f₂ (← c₂)) :=
  bind hc fun x y hxy => pure (hf x y hxy)

theorem ite {b : Prop} [Decidable b] {c₁ c₂ d₁ d₂ : Eval α}
    (hc : b → r.Follows depth jumps c₁ c₂)
    (hd : ¬ b → r.Follows depth jumps d₁ d₂) :
    r.Follows depth jumps (if b then c₁ else d₁) (if b then c₂ else d₂) := by
  split
  · exact hc ‹_›
  · exact hd ‹_›

/-! ### What is noticed -/

theorem advise (problem : Problem) (loc : Location) :
    r.Follows depth jumps (Eval.advise problem loc)
      (Eval.advise problem (r.move loc)) := by
  intro m₁ m₂ hagree
  rw [Eval.advise_eq, Eval.advise_eq]
  refine .done (.codeless ())
    (hagree.noting (fun hexact => ?_) (hagree.placed_noted problem loc))
  rw [r.exact_move hexact]
  exact hagree.noted_eq hexact problem loc

theorem adviseAll (problems : List Problem) (loc : Location) :
    r.Follows depth jumps (Eval.adviseAll problems loc)
      (Eval.adviseAll problems (r.move loc)) := by
  induction problems with
  | nil => exact pure (.codeless ())
  | cons problem problems ih => exact bindPlain (advise problem loc) fun _ => ih

/-! ### Regions -/

theorem inChild {outer : FrameId} {c₁ c₂ : FrameId → Eval α}
    (hc : ∀ frame, r.Follows depth jumps (c₁ frame) (c₂ frame)) :
    r.Follows depth jumps (Eval.inChild outer c₁) (Eval.inChild outer c₂) := by
  intro m₁ m₂ hagree
  have hchild : r.Related (m₁.scopes.child outer) (m₂.scopes.child outer) :=
    .map (f := (·.child outer)) (fun ρ a => a.child_map (recode ρ) outer)
      hagree.scopes
  unfold Eval.inChild
  generalize m₁.scopes.child outer = opened₁ at hchild
  generalize m₂.scopes.child outer = opened₂ at hchild
  obtain ⟨frame, scopes₁⟩ := opened₁
  obtain ⟨frame', scopes₂⟩ := opened₂
  obtain rfl : frame = frame' := hchild.fst.eq_of_codeless
  refine (hc frame _ _ (hagree.withScopes hchild.snd)).ending ?_
  intro m₁ m₂ hagree
  exact hagree.withScopes (.map (f := (·.release frame))
    (fun ρ a => a.release_map (recode ρ) frame) hagree.scopes)

/-- The body of a call is judged one call further in, if it may be run at all.
Below both limits it does not matter what they are. -/
theorem inCall {limit limit' : Nat} {name : String} {loc : Location}
    {c₁ c₂ : Eval α} (hlimits : limit = limit' ∨ depth < limit ∧ depth < limit')
    (hc : depth < limit → r.Follows (depth + 1) jumps c₁ c₂)
    (hrefused : limit ≤ depth →
      r.guard.refusal limit name = .recursionDepth limit name) :
    r.Follows depth jumps (Eval.inCall limit name loc c₁)
      (Eval.inCall limit' name (r.move loc) c₂) := by
  intro m₁ m₂ hagree
  unfold Eval.inCall
  rw [hagree.firstDepth, hagree.secondDepth]
  by_cases hlimit : limit ≤ depth
  · obtain rfl : limit = limit' := hlimits.resolve_right (by omega)
    rw [if_pos hlimit, if_pos hlimit]
    exact .left (related_failed (hrefused hlimit) loc) nofun hagree
  · have hlimit' : ¬ limit' ≤ depth := by omega
    rw [if_neg hlimit, if_neg hlimit']
    refine (hc (Nat.lt_of_not_le hlimit) _ _ hagree.intoCall).ending ?_
    intro m₁ m₂ hagree
    exact hagree.outOfCall

theorem inLoop {loc : Location} {c₁ c₂ : Eval α}
    (hc : r.Follows depth jumps c₁ c₂) :
    r.Follows depth jumps (Eval.inLoop loc c₁)
      (Eval.inLoop (r.move loc) c₂) := by
  intro m₁ m₂ hagree
  unfold Eval.inLoop Eval.bind
  rw [Eval.enterLoop_eq, Eval.enterLoop_eq]
  refine (hc _ _ (hagree.intoLoop loc)).ending ?_
  intro m₁ m₂ hagree
  exact hagree.outOfLoop

/-- A handler has to follow on every problem that is not guarded against. -/
theorem orElse {c₁ c₂ : Eval α} {handler₁ handler₂ : Problem → Eval α}
    (hc : r.Follows depth jumps c₁ c₂)
    (hhandler : ∀ p, r.Follows depth jumps (handler₁ p) (handler₂ p)) :
    r.Follows depth jumps (Eval.orElse c₁ handler₁)
      (Eval.orElse c₂ handler₂) := by
  intro m₁ m₂ hagree
  have hmatch := hc m₁ m₂ hagree
  unfold Eval.orElse
  generalize c₁ m₁ = o₁ at hmatch
  generalize c₂ m₂ = o₂ at hmatch
  cases hmatch with
  | done hvalue hagree => exact .done hvalue hagree
  | @left e₁ e₂ m₁ m₂ hexit hjumps hagree =>
    cases e₁ with
    | failed p loc =>
      obtain ⟨rfl, -⟩ := hexit
      change r.Matches depth jumps (handler₁ p m₁)
        (handler₂ (recode (.relocation r.move) p) m₂)
      rw [recode_relocation_problem]
      exact hhandler p m₁ m₂ hagree
    | _ =>
      obtain ⟨rfl, hguarded⟩ := hexit
      exact .left ⟨rfl, hguarded⟩ hjumps hagree
  | exhausted hstop => exact .exhausted (hstop.imp fun h => by rw [h])

/-! ### What takes up a jump -/

/-- A loop goes on or stops where its body breaks or continues; only a `return`
leads out of it. -/
theorem goesOn {c₁ c₂ : Eval Value} {jumps' : Jump → Prop}
    (hc : r.Follows depth jumps c₁ c₂) (hret : jumps .ret → jumps' .ret) :
    r.Follows depth jumps' (Eval.goesOn c₁) (Eval.goesOn c₂) := by
  intro m₁ m₂ hagree
  have hmatch := hc m₁ m₂ hagree
  unfold Eval.goesOn
  generalize c₁ m₁ = o₁ at hmatch
  generalize c₂ m₂ = o₂ at hmatch
  cases hmatch with
  | done hvalue hagree => exact .done (.codeless true) hagree
  | @left e₁ e₂ m₁ m₂ hexit hjumps hagree =>
    obtain ⟨rfl, hguarded⟩ := hexit
    cases e₁ with
    | returned v =>
      refine .left ⟨rfl, hguarded⟩ (fun j hj => ?_) hagree
      cases hj
      exact hret (hjumps .ret rfl)
    | broke => exact .done (.codeless false) hagree
    | continued => exact .done (.codeless true) hagree
    | failed p loc => exact .left ⟨rfl, hguarded⟩ nofun hagree
  | exhausted hstop => exact .exhausted (hstop.imp fun h => by rw [h])

/-- A function takes up every jump of its body. -/
theorem complete {c₁ c₂ : Eval Value} {jumps' : Jump → Prop}
    (hc : r.Follows depth jumps c₁ c₂) :
    r.Follows depth jumps' (Eval.complete c₁) (Eval.complete c₂) := by
  intro m₁ m₂ hagree
  have hmatch := hc m₁ m₂ hagree
  unfold Eval.complete
  generalize c₁ m₁ = o₁ at hmatch
  generalize c₂ m₂ = o₂ at hmatch
  cases hmatch with
  | done hvalue hagree =>
    exact .done (hvalue.map (f := (Completion.mk · false)) fun _ _ => rfl) hagree
  | @left e₁ e₂ m₁ m₂ hexit hjumps hagree =>
    obtain ⟨rfl, hguarded⟩ := hexit
    cases e₁ with
    | returned v =>
      have hvalue : r.Related v (recode (.relocation r.move) v) :=
        ⟨rfl, Exit.returned.inj hguarded⟩
      exact .done (hvalue.map (f := (Completion.mk · true)) fun _ _ => rfl)
        hagree
    | broke => exact .done ⟨rfl, rfl⟩ hagree
    | continued => exact .done ⟨rfl, rfl⟩ hagree
    | failed p loc => exact .left ⟨rfl, hguarded⟩ nofun hagree
  | exhausted hstop => exact .exhausted (hstop.imp fun h => by rw [h])

end Comparison.Follows

end Script
