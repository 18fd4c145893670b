import Script.Proofs.Eval.CallLimit
import Script.Proofs.Eval.Rules

/-!
# Properties that no run leaves

A property that every step keeps, and that opening a frame, a call or a loop keeps,
holds at every point of a run that begins with it.
-/

namespace Script

open Machine (Region)

/-- The property holds when a task begins, and when it ends, however it ends. -/
def KeptBy (Holds : Machine → Prop) (_ : Task) (m : Machine) (o : Outcome Value) : Prop :=
  Holds m ∧ ∀ m', o.machine? = some m' → Holds m'

variable {settings : Settings} {Holds : Machine → Prop} {m : Machine}

theorem throughout_keptBy {kept : Array Nat} {R : Region settings.callLimit kept}
    (hR : ∀ l m, R.Holds l m ↔ Holds m) (n : Nat) (task : Task) (hm : Holds m) :
    Throughout settings (KeptBy Holds) n task m := by
  induction n generalizing task m with
  | zero => exact ⟨hm, nofun⟩
  | succ n ih =>
    have hregion : R.Holds task.licence m := (hR _ m).mpr hm
    constructor
    · refine ⟨hm, fun m' hend => (hR task.licence m').mp ?_⟩
      exact R.stays hregion (evaluate_licensed settings (n + 1) task hend)
    · intro other hother
      have hev : (Evaluator.bounded settings n).Abides R other := fun part p hp =>
        ⟨hother part p (ih part ((hR _ p).mp hp)), fun _ hend =>
          evaluate_licensed settings n part hend⟩
      exact (hev.evalTask task m hregion).1

theorem throughoutProgram_keptBy {kept : Array Nat} {R : Region settings.callLimit kept}
    (hR : ∀ l m, R.Holds l m ↔ Holds m) (n : Nat) (p : Program) (hm : Holds m) :
    ThroughoutProgram settings (KeptBy Holds) n p m := by
  intro other hother
  have hev : (Evaluator.bounded settings n).Abides R other := fun part m' hm' =>
    ⟨hother part m' (throughout_keptBy hR n part ((hR _ m').mp hm')), fun _ hend =>
      evaluate_licensed settings n part hend⟩
  exact (hev.program p m ((hR _ m).mpr hm)).1

end Script
