import Script.Proofs.Eval.Balance
import Script.Proofs.Scope.Names

/-!
# Local names do not escape

A block and a call bind names in frames of their own.  The frames that were there
before bind the same names afterwards, and the same ones of them are constants; only
values have changed.
-/

namespace Script

open Scope (Arena Binding Bindings Frame FrameId SameNames SameConstants find?)
open Machine (Licensed)

namespace Licence

/-- The frame that names may be bound in. -/
def frame? : Licence → Option FrameId
  | values => none
  | introduce frame | declare frame | setUp frame => some frame

/-- What may become of the bindings of a frame: its names change only if it is the one
of the licence, and its constants only if that one is set up. -/
def Allows (l : Licence) (frame : FrameId) (xs ys : Bindings Value) : Prop :=
  (l.frame? ≠ some frame → SameNames xs ys) ∧
    (l ≠ .setUp frame → SameConstants xs ys)

variable {l l' : Licence}

theorem allows_refl (l : Licence) (frame : FrameId) (bindings : Bindings Value) :
    l.Allows frame bindings bindings :=
  ⟨fun _ => .refl _, fun _ => .refl _⟩

theorem Allows.trans {frame : FrameId} {xs ys zs : Bindings Value}
    (hfirst : l.Allows frame xs ys) (hsecond : l.Allows frame ys zs) :
    l.Allows frame xs zs :=
  ⟨fun hframe => (hfirst.1 hframe).trans (hsecond.1 hframe),
    fun hframe => (hfirst.2 hframe).trans (hsecond.2 hframe)⟩

theorem Allows.widen {frame : FrameId} {xs ys : Bindings Value}
    (hallows : l.Allows frame xs ys) (hwithin : l.Within l') :
    l'.Allows frame xs ys := by
  cases hwithin with
  | refl => exact hallows
  | values => exact ⟨fun _ => hallows.1 nofun, fun _ => hallows.2 nofun⟩
  | introduceDeclare | introduceSetUp | declareSetUp =>
    exact ⟨fun hframe => hallows.1 hframe, fun _ => hallows.2 nofun⟩

end Licence

namespace Scope.Arena

variable {a : Arena Value} {kept : Array Nat}

/-- A variable gets a new value where it is bound. -/
theorem carries_update (l : Licence) {frame : FrameId} {name : String} (value : Value)
    (hvariable : a.isConstant frame name = false) :
    Carries l.Allows (a.owning kept) ((a.update frame name value).2.owning kept) := by
  unfold update
  split
  · exact .refl l.allows_refl _
  · next owner found hresolve =>
    refine carries_modifyBindings l.allows_refl owner _ fun ownerFrame howner => ?_
    change a.frame? owner = some ownerFrame at howner
    refine ⟨fun _ => Scope.sameNames_rebind name value _, fun _ => ?_⟩
    refine Scope.sameConstants_rebind ?_
    obtain ⟨resolved, hresolved, hfound⟩ := frame?_of_resolveWithin hresolve
    rw [howner, Option.some.injEq] at hresolved
    subst hresolved
    rw [hfound]
    simpa [isConstant, hresolve] using hvariable

/-- A name is bound in the frame of a licence. -/
theorem carries_bind {l : Licence} {frame : FrameId} (hframe : l.frame? = some frame)
    {b : Binding Value} (hvariable : l ≠ .setUp frame →
      a.isLocalConstant frame b.name = false) :
    Carries l.Allows (a.owning kept) ((a.bind frame b).owning kept) := by
  refine carries_modifyBindings l.allows_refl frame _ fun old hold => ?_
  change a.frame? frame = some old at hold
  refine ⟨fun hother => absurd hframe hother, fun hsetUp => ?_⟩
  refine Scope.sameConstants_put ?_
  have hfree := hvariable hsetUp
  rw [isLocalConstant, hold, Option.any_some] at hfree
  rw [find?, hfree]
  cases old.bindings.values[b.name]? <;> rfl

/-- A name that cannot be seen is no constant of the frame. -/
theorem Tidy.isLocalConstant_of_unbound (htidy : a.Tidy) {frame : FrameId} {name : String}
    (hunbound : a.resolve? frame name = none) : a.isLocalConstant frame name = false := by
  rw [← Bool.not_eq_true, htidy.isLocalConstant_iff]
  rintro ⟨found, hfound, -⟩
  cases hunbound.symm.trans hfound

end Scope.Arena

namespace Machine

variable {limit : Nat} {kept : Array Nat} {l : Licence} {m m' : Machine}

/-- What is done within a licence keeps the arena in order and the owners where they
are, and it keeps all that the running frames and these owners need. -/
theorem Licensed.carries (hlicensed : Licensed limit kept l m m')
    (htidy : m.scopes.Tidy) (howned : m.scopes.Owned kept) :
    m'.scopes.Tidy ∧ m'.scopes.Owned kept ∧
      Arena.Carries l.Allows (m.scopes.owning kept) (m'.scopes.owning kept) := by
  induction hlicensed with
  | rest l m => exact ⟨htidy, howned, .refl l.allows_refl _⟩
  | silent l hsilent =>
    rw [hsilent.scopes_eq]
    exact ⟨htidy, howned, .refl l.allows_refl _⟩
  | pin l m frame =>
    exact ⟨htidy.quiet (Arena.quiet_pin frame), howned.pin frame,
      Arena.carries_pin l.allows_refl frame⟩
  | drop l m hold hmore =>
    exact ⟨htidy.quiet (Arena.quiet_drop hold), howned.drop hmore, .refl l.allows_refl _⟩
  | update l m frame name value hvariable =>
    exact ⟨htidy.quiet (Arena.quiet_update frame name value),
      howned.of_holds_eq (Arena.holds_update frame name value),
      Arena.carries_update l value hvariable⟩
  | introduce m frame name value hunbound =>
    exact ⟨htidy.quiet (Arena.quiet_bind frame _), howned, Arena.carries_bind rfl
      fun _ => htidy.isLocalConstant_of_unbound hunbound⟩
  | declare m frame b hvariable =>
    exact ⟨htidy.quiet (Arena.quiet_bind frame b), howned,
      Arena.carries_bind rfl fun _ => hvariable⟩
  | setUp m frame name value =>
    exact ⟨htidy.quiet (Arena.quiet_bind frame _), howned,
      Arena.carries_bind rfl fun hother => absurd rfl hother⟩
  | widen hwithin _ ih =>
    obtain ⟨htidy', howned', hcarries⟩ := ih htidy howned
    exact ⟨htidy', howned', hcarries.mono fun _ _ _ _ hallows => hallows.widen hwithin⟩
  | seq _ _ ihfirst ihsecond =>
    obtain ⟨htidy', howned', hfirst⟩ := ihfirst htidy howned
    obtain ⟨htidy'', howned'', hsecond⟩ := ihsecond htidy' howned'
    exact ⟨htidy'', howned'', hfirst.trans (fun _ _ _ _ _ => Licence.Allows.trans) hsecond⟩
  | @frame m m' l outer _ ih =>
    have hslot := htidy.frame?_child_slot outer
    obtain ⟨htidy', howned', hinner⟩ := ih (htidy.child outer) (howned.child outer)
    have hchild := (htidy.owning kept).carries_child
      (Licence.allows_refl (.setUp (m.scopes.child outer).1)) outer
    rw [Arena.child_owning] at hchild
    have hopened : Arena.Carries (Licence.setUp (m.scopes.child outer).1).Allows
        (m.scopes.owning kept) (m'.scopes.owning kept) :=
      hchild.trans (fun _ _ _ _ _ => Licence.Allows.trans) hinner
    refine ⟨htidy'.release _, howned'.of_holds_eq (Arena.holds_release _ _),
      Arena.Carries.release ?_ htidy' howned' hslot⟩
    -- What could be reached before lies outside of the frame that was opened.
    refine hopened.mono fun id xs ys hid hallows => ?_
    have hne : (m.scopes.child outer).1 ≠ id := by
      rintro rfl
      have hsome : (m.scopes.frame? (m.scopes.child outer).1).isSome := hid.isSome
      rw [hslot] at hsome
      cases hsome
    exact ⟨fun _ => hallows.1 fun heq => hne (Option.some.inj heq),
      fun _ => hallows.2 fun heq => hne (Licence.setUp.inj heq)⟩
  | call _ _ ih => exact ih htidy howned
  | loop _ ih => exact ih htidy howned

/-- Every frame that could be reached can still be reached.  It lies inside the same
frame and binds the same names, and the same ones of them are constants. -/
def NamesStay (m m' : Machine) : Prop :=
  ∀ frame old, m.scopes.Reachable frame → m.scopes.frame? frame = some old →
    m'.scopes.Reachable frame ∧
      ∃ new, m'.scopes.frame? frame = some new ∧ new.outer = old.outer ∧
        SameNames old.bindings new.bindings

/-- Whichever holds are given up on the way: a frame that the running frames and the
kept owners need can be reached all the time, and binds the same names. -/
theorem Licensed.keepsNames (hlicensed : Licensed limit kept .values m m')
    (htidy : m.scopes.Tidy) (howned : m.scopes.Owned kept) {frame : FrameId}
    {old : Frame Value} (hframe : (m.scopes.owning kept).Reachable frame)
    (hold : m.scopes.frame? frame = some old) :
    m'.scopes.Reachable frame ∧
      ∃ new, m'.scopes.frame? frame = some new ∧ new.outer = old.outer ∧
        SameNames old.bindings new.bindings := by
  obtain ⟨-, howned', hcarries⟩ := hlicensed.carries htidy howned
  obtain ⟨new, hnew, houter, hallows⟩ := hcarries.frame frame old hframe hold
  exact ⟨(hcarries.reachable hframe).of_owning howned', new, hnew, houter,
    hallows.1 nofun⟩

/-- Holds that were there before are kept. -/
theorem Licensed.namesStay (hlicensed : Licensed limit m.scopes.holds .values m m')
    (hm : m.Reached) : NamesStay m m' :=
  fun _ _ hframe hold =>
    hlicensed.keepsNames hm.tidy (Arena.owned_self m.scopes) hframe hold

end Machine

/-- However a block ends, or the call of any value or of a method with any arguments:
every frame that could be reached before can be reached afterwards and binds the same
names, and the same ones of them are constants. -/
theorem local_names_stay_inside (settings : Settings) (n : Nat) {m m' : Machine}
    (hm : m.Reached) :
    (∀ block outer,
      ((Evaluator.bounded settings n).scopedBlock block outer m).machine? = some m' →
      m.NamesStay m') ∧
    (∀ callee args loc,
      (evaluate settings n (.apply callee args loc) m).machine? = some m' →
      m.NamesStay m') ∧
    ∀ f args receiver loc,
      ((Evaluator.bounded settings n).callFunction f args receiver loc m).machine? =
        some m' →
      m.NamesStay m' := by
  have hev := Evaluator.bounded_abides settings n m.scopes.holds
  refine ⟨fun block outer hend => ?_, fun callee args loc hend => ?_,
    fun f args receiver loc hend => ?_⟩
  · exact ((hev.scopedBlock block outer m trivial).2 m' hend).namesStay hm
  · exact (evaluate_licensed settings n (.apply callee args loc) hend).namesStay hm
  · exact ((hev.callFunction f args receiver loc m trivial).2 m' hend).namesStay hm

/-- A block that declares one name, gives another one a new value, and a third one
its first value. -/
def settingBlock : Block :=
  let set (name : String) (value : Int64) : Stmt :=
    .expr (.assign (.name ⟨name, default⟩) .assign (.int value default) default) default
  ⟨[.bind true ⟨"b", default⟩ none (.int 1 default) default, set "a" 2, set "c" 3],
    default⟩

/-- A machine whose root frame binds a name. -/
def settingMachine : Machine :=
  { Machine.start "" with scopes := Arena.new.set Arena.root "a" (.int 1) }

/-- A function that has the block for its body. -/
def settingFunction : Closure :=
  ⟨0, ⟨none, .plain [], [], settingBlock, default⟩, Arena.root⟩

theorem local_names_stay_inside_settingBlock :
    ∃ m₁ m₂ m₃,
      ((Evaluator.bounded ⟨1, .empty⟩ 3).scopedBlock settingBlock Arena.root
          settingMachine = .done (.int 3) m₁ ∧
        m₁.scopes.get? Arena.root "a" = some (.int 2) ∧
        settingMachine.NamesStay m₁) ∧
      (evaluate ⟨1, .empty⟩ 4 (.apply (.function settingFunction) [] default)
          settingMachine = .done (.int 3) m₂ ∧
        settingMachine.NamesStay m₂) ∧
      ((Evaluator.bounded ⟨1, .empty⟩ 3).callFunction settingFunction []
          (some .null) default settingMachine = .done (.int 3) m₃ ∧
        settingMachine.NamesStay m₃) := by
  have hm : settingMachine.Reached := .change (.start "" _)
    (.bind _ Arena.root { name := "a", value := .int 1, constant := false })
  obtain ⟨m₁, hrun₁, hvalue⟩ : ∃ m₁,
      (Evaluator.bounded ⟨1, .empty⟩ 3).scopedBlock settingBlock Arena.root
        settingMachine = .done (.int 3) m₁ ∧
      m₁.scopes.get? Arena.root "a" = some (.int 2) := ⟨_, rfl, rfl⟩
  obtain ⟨m₂, hrun₂⟩ : ∃ m₂,
      evaluate ⟨1, .empty⟩ 4 (.apply (.function settingFunction) [] default)
        settingMachine = .done (.int 3) m₂ := ⟨_, rfl⟩
  obtain ⟨m₃, hrun₃⟩ : ∃ m₃,
      (Evaluator.bounded ⟨1, .empty⟩ 3).callFunction settingFunction []
        (some .null) default settingMachine = .done (.int 3) m₃ := ⟨_, rfl⟩
  have hblock : settingMachine.NamesStay m₁ :=
    (local_names_stay_inside ⟨1, .empty⟩ 3 hm).1 _ _ (congrArg Outcome.machine? hrun₁)
  have happly : settingMachine.NamesStay m₂ :=
    (local_names_stay_inside ⟨1, .empty⟩ 4 hm).2.1 _ _ _
      (congrArg Outcome.machine? hrun₂)
  have hcall : settingMachine.NamesStay m₃ :=
    (local_names_stay_inside ⟨1, .empty⟩ 3 hm).2.2 _ _ _ _
      (congrArg Outcome.machine? hrun₃)
  exact ⟨m₁, m₂, m₃, ⟨hrun₁, hvalue, hblock⟩, ⟨hrun₂, happly⟩, hrun₃, hcall⟩

end Script
