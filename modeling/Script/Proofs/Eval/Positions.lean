import Script.Proofs.Eval.Identical

/-!
# Positions do not matter

Where code was written has no influence on a run, and neither has what was noticed
before, in how many loops the run is or which text it belongs to.  All of that is
taken out of a machine and of a task to make them bare.  Two runs of the same bare
task on the same bare machine are both followed by the run of the bare task on the
bare machine, so they end in the same way.
-/

namespace Script

open Scope (Arena FrameId)
open Comparison
open Location (nowhere)

/-! ### Without locations -/

/-- Takes the locations out of all code. -/
def Recoding.bare : Recoding := .relocation nowhere

def Task.bare : Task → Task
  | .expr e frame => .expr e.bare frame
  | .stmt s frame => .stmt s.bare frame
  | .apply callee args _ =>
    .apply (recode .bare callee) (recode .bare args) default

def Settings.bare (settings : Settings) : Settings :=
  { settings with library := fun name => recode .bare (settings.library name) }

/-- What matters of a machine for how a run goes on. -/
def Machine.bare (m : Machine) : Machine where
  scopes := recode .bare m.scopes
  heap := recode .bare m.heap
  input := m.input
  callDepth := m.callDepth

/-! ### Outcomes that are the same -/

/-- The same text has been printed in two runs from one machine to another. -/
def Machine.PrintedSame (m₁ m₁' m₂ m₂' : Machine) : Prop :=
  ∃ text, m₁'.output = m₁.output ++ text ∧ m₂'.output = m₂.output ++ text

/-- Two runs from given machines have the same values or signals, the same problem
if they fail, have printed the same and leave machines that are bare the same. -/
inductive Outcome.Resembles {α : Type} [Recodable α] (m₁ m₂ : Machine) :
    Outcome α → Outcome α → Prop where
  | done {x y : α} {m₁' m₂' : Machine} (hvalue : recode .bare x = recode .bare y)
      (hmachine : m₁'.bare = m₂'.bare) (hprinted : m₁.PrintedSame m₁' m₂ m₂') :
      Resembles m₁ m₂ (.done x m₁') (.done y m₂')
  | left {e₁ e₂ : Exit} {m₁' m₂' : Machine}
      (hexit : recode .bare e₁ = recode .bare e₂)
      (hmachine : m₁'.bare = m₂'.bare) (hprinted : m₁.PrintedSame m₁' m₂ m₂') :
      Resembles m₁ m₂ (.left e₁ m₁') (.left e₂ m₂')
  | exhausted : Resembles m₁ m₂ .exhausted .exhausted

namespace Comparison

/-- A run beside that of the bare code, which has printed nothing before. -/
def baring (printed : String) : Comparison where
  move := nowhere
  guard := .still .recursionDepth
  guard_loc := Recoding.still_loc _
  exact := False
  exact_move := False.elim
  printed := (printed, "")
  stopping := .together

namespace baring

variable {printed : String} {depth : Nat}

theorem related_bare {α : Type} [Recodable α] [Fixes (.still .recursionDepth) α]
    (x : α) : (baring printed).Related x (recode .bare x) :=
  ⟨rfl, Fixes.recode_eq (ρ := .still .recursionDepth) x⟩

theorem followsAll (settings : Settings) (n depth : Nat) :
    (baring printed).FollowsAll (.bounded settings n) (.bounded settings.bare n)
      depth := by
  have hlimit : settings.callLimit = settings.bare.callLimit := rfl
  have hlibrary : ∀ name, (baring printed).Related (settings.library name)
      (settings.bare.library name) :=
    fun name => related_bare (settings.library name)
  exact .bounded (Recoding.still_keeps _) rfl (by nofun) hlimit hlibrary
    (Or.inl rfl) depth

theorem agree_bare (m : Machine) :
    (baring m.output).Agree m.callDepth m m.bare where
  scopes := related_bare m.scopes
  heap := related_bare m.heap
  input := rfl
  output := ⟨"", String.append_empty.symm, rfl⟩
  firstDepth := rfl
  secondDepth := rfl
  noticed := False.elim
  placed _ _ := trivial

theorem bare_eq_of_agree {m₁ m₂ m : Machine} {printed' : String}
    (h₁ : (baring printed).Agree depth m₁ m)
    (h₂ : (baring printed').Agree depth m₂ m) : m₁.bare = m₂.bare := by
  have hscopes : recode .bare m₁.scopes = recode .bare m₂.scopes :=
    h₁.scopes.moved.trans h₂.scopes.moved.symm
  have hheap : recode .bare m₁.heap = recode .bare m₂.heap :=
    h₁.heap.moved.trans h₂.heap.moved.symm
  have hinput : m₁.input = m₂.input := h₁.input.trans h₂.input.symm
  have hdepth : m₁.callDepth = m₂.callDepth :=
    h₁.firstDepth.trans h₂.firstDepth.symm
  simp only [Machine.bare, hscopes, hheap, hinput, hdepth]

theorem printedSame_of_agree {m₁ m₂ m₁' m₂' m : Machine}
    (h₁ : (baring m₁.output).Agree depth m₁' m)
    (h₂ : (baring m₂.output).Agree depth m₂' m) : m₁.PrintedSame m₁' m₂ m₂' := by
  obtain ⟨text₁, hfirst, hbare₁⟩ := h₁.output
  obtain ⟨text₂, hsecond, hbare₂⟩ := h₂.output
  have htext : text₁ = text₂ := by
    have hboth : "" ++ text₁ = "" ++ text₂ := hbare₁.symm.trans hbare₂
    rwa [String.empty_append, String.empty_append] at hboth
  exact ⟨text₁, hfirst, htext ▸ hsecond⟩

/-- Two runs that are followed by the same run of bare code. -/
theorem resembles_of_matches {α : Type} [Recodable α] {jumps₁ jumps₂ : Jump → Prop}
    {m₁ m₂ : Machine} {o₁ o₂ o : Outcome α}
    (h₁ : (baring m₁.output).Matches depth jumps₁ o₁ o)
    (h₂ : (baring m₂.output).Matches depth jumps₂ o₂ o) :
    Outcome.Resembles m₁ m₂ o₁ o₂ := by
  cases h₁ with
  | done hvalue hagree =>
    cases h₂ with
    | done hvalue' hagree' =>
      exact .done (hvalue.moved.trans hvalue'.moved.symm)
        (bare_eq_of_agree hagree hagree') (printedSame_of_agree hagree hagree')
    | exhausted hstop => cases hstop
  | left hexit _ hagree =>
    cases h₂ with
    | left hexit' _ hagree' =>
      exact .left (hexit.moved.trans hexit'.moved.symm)
        (bare_eq_of_agree hagree hagree') (printedSame_of_agree hagree hagree')
    | exhausted hstop => cases hstop
  | exhausted hstop =>
    obtain rfl : o = .exhausted := hstop
    cases h₂ with
    | exhausted _ => exact .exhausted

/-! ### Tasks and programs -/

theorem evaluate_matches (settings : Settings) (bound : Nat) (task : Task)
    (m : Machine) :
    (baring m.output).Matches m.callDepth anyJump (evaluate settings bound task m)
      (evaluate settings.bare bound task.bare m.bare) := by
  have hall : (baring m.output).FollowsAll _ _ m.callDepth :=
    followsAll settings bound m.callDepth
  cases task with
  | expr e frame =>
    have hexpr := hall.piece (.expr e) frame m m.bare (agree_bare m)
    change Matches _ _ _ _
      (evaluate settings.bare bound (.expr (e.relocate nowhere) frame) m.bare)
      at hexpr
    rw [e.relocate_nowhere] at hexpr
    exact hexpr.weaken fun _ _ => trivial
  | stmt s frame =>
    have hstmt := hall.piece (.stmt s) frame m m.bare (agree_bare m)
    change Matches _ _ _ _
      (evaluate settings.bare bound (.stmt (s.relocate nowhere) frame) m.bare)
      at hstmt
    rw [s.relocate_nowhere] at hstmt
    exact hstmt.weaken fun _ _ => trivial
  | apply callee args loc =>
    exact (hall.apply (args.length + 1) loc (related_bare callee)
      (related_bare args) (Nat.lt_succ_self _) m m.bare (agree_bare m)).weaken
        nofun

theorem program_matches (settings : Settings) (bound : Nat) (p : Program)
    (m : Machine) :
    (baring m.output).Matches m.callDepth noJump
      ((Evaluator.bounded settings bound).program p m)
      ((Evaluator.bounded settings.bare bound).program p.bare m.bare) := by
  have hall : (baring m.output).FollowsAll _ _ m.callDepth :=
    followsAll settings bound m.callDepth
  have hprogram := hall.program p m m.bare (agree_bare m)
  change Matches _ _ _ _ ((Evaluator.bounded settings.bare bound).program
    (p.relocate nowhere) m.bare) at hprogram
  rwa [p.relocate_nowhere] at hprogram

end baring

end Comparison

/-- Tasks that are the same up to locations, on machines that hold the same up to
locations, at the same places in memory, and are to read the same, end in the same
way: with the same value, the same signal or the same problem, having printed the
same, and with machines that again hold the same.  What was noticed before, how many
loops are under way and the text of the program may differ as they like.  The same
holds of programs. -/
theorem evaluation_ignores_positions (bound : Nat) {settings₁ settings₂ : Settings}
    (hsettings : settings₁.bare = settings₂.bare) {m₁ m₂ : Machine}
    (hmachine : m₁.bare = m₂.bare) :
    (∀ task₁ task₂ : Task, task₁.bare = task₂.bare →
      Outcome.Resembles m₁ m₂ (evaluate settings₁ bound task₁ m₁)
        (evaluate settings₂ bound task₂ m₂)) ∧
    ∀ p₁ p₂ : Program, p₁.bare = p₂.bare →
      Outcome.Resembles m₁ m₂
        ((Evaluator.bounded settings₁ bound).program p₁ m₁)
        ((Evaluator.bounded settings₂ bound).program p₂ m₂) := by
  have hdepth : m₁.bare.callDepth = m₂.bare.callDepth := by rw [hmachine]
  change m₁.callDepth = m₂.callDepth at hdepth
  constructor
  · intro task₁ task₂ htask
    have hfirst := baring.evaluate_matches settings₁ bound task₁ m₁
    have hsecond := baring.evaluate_matches settings₂ bound task₂ m₂
    rw [hsettings, htask, hmachine, hdepth] at hfirst
    exact baring.resembles_of_matches hfirst hsecond
  · intro p₁ p₂ hp
    have hfirst := baring.program_matches settings₁ bound p₁ m₁
    have hsecond := baring.program_matches settings₂ bound p₂ m₂
    rw [hsettings, hp, hmachine, hdepth] at hfirst
    exact baring.resembles_of_matches hfirst hsecond

/-- A name that is not bound fails in the same way on another line, inside two
loops and behind other output. -/
theorem evaluation_ignores_positions_unboundName :
    let m₁ : Machine := {}
    let m₂ : Machine := { source := some "f", output := "> ", loopDepth := 2 }
    let task (line : Nat) : Task :=
      .expr (.name ⟨"f", .onLine "main" line 1 2⟩) Arena.root
    m₁.bare = m₂.bare ∧ (task 1).bare = (task 7).bare ∧
      Outcome.Resembles m₁ m₂ (evaluate ⟨8, .standard⟩ 10 (task 1) m₁)
        (evaluate ⟨8, .standard⟩ 10 (task 7) m₂) := by
  intro m₁ m₂ task
  have hmachine : m₁.bare = m₂.bare := rfl
  have htask : (task 1).bare = (task 7).bare := rfl
  have hsettings : (Settings.mk 8 .standard).bare = (Settings.mk 8 .standard).bare :=
    rfl
  exact ⟨hmachine, htask,
    (evaluation_ignores_positions 10 hsettings hmachine).1 (task 1) (task 7) htask⟩

end Script
