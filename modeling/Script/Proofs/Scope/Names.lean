import Script.Proofs.Scope.Reach

/-!
# Names and constants of frames

What becomes of the names of a frame, and of its constants, when one name is bound or
given a new value, and what follows for the names that can be seen from a frame.
-/

namespace Script.Scope

variable {α : Type}

/-- The same names are bound, and the same ones of them are constants. -/
def SameNames (xs ys : Bindings α) : Prop :=
  ∀ name, (find? name ys).map (·.constant) = (find? name xs).map (·.constant)

/-- What is bound as a constant stays as it is. -/
def SameConstants (xs ys : Bindings α) : Prop :=
  ∀ name b, find? name xs = some b → b.constant = true → find? name ys = some b

theorem SameNames.refl (bindings : Bindings α) : SameNames bindings bindings :=
  fun _ => rfl

theorem SameNames.trans {xs ys zs : Bindings α} (hfirst : SameNames xs ys)
    (hsecond : SameNames ys zs) : SameNames xs zs :=
  fun name => (hsecond name).trans (hfirst name)

theorem SameConstants.refl (bindings : Bindings α) :
    SameConstants bindings bindings :=
  fun _ _ hfound _ => hfound

theorem SameConstants.trans {xs ys zs : Bindings α}
    (hfirst : SameConstants xs ys) (hsecond : SameConstants ys zs) :
    SameConstants xs zs :=
  fun name b hfound hconstant =>
    hsecond name b (hfirst name b hfound hconstant) hconstant

/-- What is bound as a constant stays as it is, except for some names. -/
def SameConstantsBut (but : String → Prop) (xs ys : Bindings α) : Prop :=
  ∀ name b, find? name xs = some b → b.constant = true → ¬ but name →
    find? name ys = some b

theorem SameConstants.but {but : String → Prop} {xs ys : Bindings α}
    (hsame : SameConstants xs ys) : SameConstantsBut but xs ys :=
  fun name b hfound hconstant _ => hsame name b hfound hconstant

theorem SameConstantsBut.trans {but : String → Prop} {xs ys zs : Bindings α}
    (hfirst : SameConstantsBut but xs ys) (hsecond : SameConstantsBut but ys zs) :
    SameConstantsBut but xs zs :=
  fun name b hfound hconstant hkept =>
    hsecond name b (hfirst name b hfound hconstant hkept) hconstant hkept

theorem SameConstantsBut.mono {but but' : String → Prop} {xs ys : Bindings α}
    (hsame : SameConstantsBut but xs ys) (hbut : ∀ name, but name → but' name) :
    SameConstantsBut but' xs ys :=
  fun name b hfound hconstant hkept =>
    hsame name b hfound hconstant fun hname => hkept (hbut name hname)

theorem sameNames_rebind (name : String) (value : α) (bindings : Bindings α) :
    SameNames bindings (rebind name value bindings) := by
  intro other
  by_cases hother : other = name
  · subst hother
    rw [find?_rebind_self, Option.map_map]
    rfl
  · rw [find?_rebind_of_ne hother]

/-- A variable may get a new value. -/
theorem sameConstants_rebind {name : String} {value : α} {bindings : Bindings α}
    (hvariable : (find? name bindings).any (·.constant) = false) :
    SameConstants bindings (rebind name value bindings) := by
  intro other b hfound hconstant
  rw [find?_rebind_of_ne, hfound]
  rintro rfl
  rw [hfound, Option.any_some, hconstant] at hvariable
  cases hvariable

/-- A name that is no constant may be bound anew. -/
theorem sameConstants_put {b : Binding α} {bindings : Bindings α}
    (hvariable : (find? b.name bindings).any (·.constant) = false) :
    SameConstants bindings (put b bindings) := by
  intro name old hfound hconstant
  rw [find?_put_of_ne, hfound]
  rintro rfl
  rw [hfound, Option.any_some, hconstant] at hvariable
  cases hvariable

theorem sameConstantsBut_put {b : Binding α} {but : String → Prop} (hb : but b.name)
    (bindings : Bindings α) : SameConstantsBut but bindings (put b bindings) := by
  intro name old hfound _ hkept
  rw [find?_put_of_ne, hfound]
  rintro rfl
  exact hkept hb

namespace Arena

variable {a b : Arena α}

/-! ### Names that can be seen from a frame -/

/-- A lookup that finds something has found it in its first frame, or goes on from the
frame around it. -/
theorem resolveWithin_succ_cases {name : String} {n : Nat} {id owner : FrameId}
    {found : Binding α}
    (hfound : resolveWithin a name (n + 1) id = some (owner, found)) :
    ∃ frame, a.frame? id = some frame ∧
      ((owner = id ∧ find? name frame.bindings = some found) ∨
        ∃ outer, find? name frame.bindings = none ∧ frame.outer = some outer ∧
          resolveWithin a name n outer = some (owner, found)) := by
  unfold resolveWithin at hfound
  split at hfound
  · cases hfound
  · next frame hframe =>
    refine ⟨frame, hframe, ?_⟩
    split at hfound
    · next b hb =>
      rw [Option.some.injEq, Prod.mk.injEq] at hfound
      obtain ⟨rfl, rfl⟩ := hfound
      exact .inl ⟨rfl, hb⟩
    · next hunbound =>
      split at hfound
      · cases hfound
      · next outer houter => exact .inr ⟨outer, hunbound, houter, hfound⟩

theorem frame?_of_resolveWithin {name : String} {n : Nat} {id owner : FrameId}
    {found : Binding α} (hfound : resolveWithin a name n id = some (owner, found)) :
    ∃ frame, a.frame? owner = some frame ∧
      find? name frame.bindings = some found := by
  induction n generalizing id with
  | zero => cases hfound
  | succ n ih =>
    obtain ⟨frame, hframe, ⟨rfl, hb⟩ | ⟨outer, -, -, hfound⟩⟩ :=
      resolveWithin_succ_cases hfound
    · exact ⟨frame, hframe, hb⟩
    · exact ih hfound

/-- The owners of holds have no part in what is seen. -/
theorem resolveWithin_owning (owners : Array Nat) (name : String) (n : Nat)
    (id : FrameId) :
    (a.owning owners).resolveWithin name n id = a.resolveWithin name n id := by
  induction n generalizing id with
  | zero => rfl
  | succ n ih =>
    simp only [resolveWithin, ih]
    rfl

theorem resolve?_owning (owners : Array Nat) (id : FrameId) (name : String) :
    (a.owning owners).resolve? id name = a.resolve? id name :=
  resolveWithin_owning owners name _ id

/-- A name is seen in the frame itself first. -/
theorem resolve?_of_find? {id : FrameId} {name : String} {frame : Frame α}
    {found : Binding α} (hframe : a.frame? id = some frame)
    (hfound : find? name frame.bindings = some found) :
    a.resolve? id name = some (id, found) := by
  obtain ⟨size, hsize⟩ :=
    Nat.exists_eq_succ_of_ne_zero (Nat.ne_zero_of_lt (lt_size_of_frame? hframe))
  rw [resolve?, hsize, resolveWithin]
  simp only [hframe, hfound]

theorem isConstant_iff {id : FrameId} {name : String} :
    a.isConstant id name = true ↔
      ∃ owner found, a.resolve? id name = some (owner, found) ∧
        found.constant = true := by
  rw [isConstant, Option.any_eq_true]
  constructor
  · rintro ⟨⟨owner, found⟩, hfound, hconstant⟩
    exact ⟨owner, found, hfound, hconstant⟩
  · rintro ⟨owner, found, hfound, hconstant⟩
    exact ⟨(owner, found), hfound, hconstant⟩

/-- A constant of a frame is what is seen from there. -/
theorem Tidy.isLocalConstant_iff (htidy : a.Tidy) {id : FrameId} {name : String} :
    a.isLocalConstant id name = true ↔
      ∃ found, a.resolve? id name = some (id, found) ∧ found.constant = true := by
  constructor
  · intro hconstant
    obtain ⟨frame, hframe, hany⟩ := (Option.any_eq_true _ _).mp hconstant
    obtain ⟨value, hvalue⟩ := htidy.constants_bound id frame hframe name hany
    have hfound : find? name frame.bindings = some ⟨name, value, true⟩ := by
      rw [find?, hvalue, Option.map_some, hany]
    exact ⟨_, resolve?_of_find? hframe hfound, rfl⟩
  · rintro ⟨found, hfound, hconstant⟩
    obtain ⟨frame, hframe, hbound⟩ := frame?_of_resolveWithin hfound
    obtain ⟨value, -, rfl⟩ := Option.map_eq_some_iff.mp hbound
    exact (Option.any_eq_true _ _).mpr ⟨frame, hframe, hconstant⟩

/-- What is seen from a frame is seen again where all frames around it bind the same
names. -/
theorem Carries.resolveWithin
    {R : FrameId → Bindings α → Bindings α → Prop}
    (hcarries : Carries R a b) (hR : ∀ id xs ys, R id xs ys → SameNames xs ys)
    {name : String} {n k : Nat} (hk : n ≤ k) {id owner : FrameId}
    {found : Binding α} (hid : a.Reachable id)
    (hfound : a.resolveWithin name n id = some (owner, found)) :
    ∃ found', b.resolveWithin name k id = some (owner, found') ∧
      found'.constant = found.constant := by
  induction n generalizing id k with
  | zero => cases hfound
  | succ n ih =>
    obtain ⟨k, rfl⟩ := Nat.exists_eq_succ_of_ne_zero (Nat.ne_zero_of_lt hk)
    unfold Arena.resolveWithin at hfound ⊢
    split at hfound
    · cases hfound
    · next frame hframe =>
      obtain ⟨new, hnew, hsameOuter, hbindings⟩ := hcarries.frame id frame hid hframe
      have hsame := hR _ _ _ hbindings name
      simp only [hnew, hsameOuter]
      split at hfound
      · next old hold =>
        rw [hold, Option.map_some, Option.map_eq_some_iff] at hsame
        obtain ⟨found', hfound', hconstant⟩ := hsame
        rw [Option.some.injEq, Prod.mk.injEq] at hfound
        obtain ⟨rfl, rfl⟩ := hfound
        exact ⟨found', by rw [hfound'], hconstant⟩
      · next hnone =>
        rw [hnone, Option.map_none, Option.map_eq_none_iff] at hsame
        simp only [hsame]
        split at hfound
        · cases hfound
        · next outer houter =>
          refine ih (Nat.le_of_succ_le_succ hk) (.around hid hframe houter ?_) hfound
          cases n with
          | zero => cases hfound
          | succ n =>
            cases houterFrame : a.frame? outer with
            | some _ => rfl
            | none => simp [Arena.resolveWithin, houterFrame] at hfound

/-- To bind one name does not change how others are seen. -/
theorem resolveWithin_bind_of_ne {name : String} {new : Binding α}
    (hne : name ≠ new.name) (slot : FrameId) (n : Nat) (id : FrameId) :
    (a.bind slot new).resolveWithin name n id = a.resolveWithin name n id := by
  induction n generalizing id with
  | zero => rfl
  | succ n ih =>
    unfold resolveWithin
    rw [bind, frame?_modifyFrame]
    by_cases hid : id = slot
    · subst hid
      rw [if_pos rfl]
      cases a.frame? id with
      | none => rfl
      | some frame =>
        simp only [Option.map_some, find?_put_of_ne hne]
        split
        · rfl
        · split
          · rfl
          · exact ih _
    · rw [if_neg hid]
      cases a.frame? id with
      | none => rfl
      | some frame =>
        dsimp only
        split
        · rfl
        · split
          · rfl
          · exact ih _

theorem resolve?_bind_of_ne {name : String} {new : Binding α} (hne : name ≠ new.name)
    (slot id : FrameId) : (a.bind slot new).resolve? id name = a.resolve? id name := by
  rw [resolve?, resolve?, resolveWithin_bind_of_ne hne, bind, size_modifyFrame]

end Arena

end Script.Scope
