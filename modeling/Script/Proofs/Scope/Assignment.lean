import Script.Proofs.Scope.Acyclic
import Script.Proofs.Scope.Names

/-!
# Assignments and what is seen of them

A name is looked up along the outer chain, past the frames that do not bind it.  An
assignment changes the binding that is found so, and every frame whose own lookup comes
to the same frame sees the new value.  To bind a name in a frame is seen from the frames
whose lookups reach that frame, whether or not it has bound the name before.
-/

namespace Script.Scope.Arena

variable {α : Type} {a : Arena α}

/-! ### The path of a lookup -/

/-- A lookup of the name goes on from the frame in `inner` to the slot `outer`. -/
def Passes (a : Arena α) (name : String) (inner outer : FrameId) : Prop :=
  ∃ frame, a.frame? inner = some frame ∧ find? name frame.bindings = none ∧
    frame.outer = some outer

/-- The outer chain of `id` gets to the slot `target` before any other frame that binds
the name. -/
def Reaches (a : Arena α) (name : String) : FrameId → FrameId → Prop :=
  Relation.ReflTransGen (a.Passes name)

/-- The frame in `owner` is the nearest one around `id` that binds the name. -/
def Resolves (a : Arena α) (name : String) (id owner : FrameId) : Prop :=
  a.Reaches name id owner ∧
    ∃ frame, a.frame? owner = some frame ∧ (find? name frame.bindings).isSome

theorem Passes.inside {name : String} {inner outer : FrameId}
    (hpasses : a.Passes name inner outer) : a.Inside inner outer := by
  obtain ⟨frame, hframe, -, houter⟩ := hpasses
  exact ⟨frame, hframe, houter⟩

theorem Reaches.around {name : String} {id target : FrameId}
    (hreaches : a.Reaches name id target) : a.Around id target :=
  Relation.ReflTransGen.mono (fun _ _ => Passes.inside) _ _ hreaches

theorem reaches_of_resolveWithin {name : String} {n : Nat} {id owner : FrameId}
    {found : Binding α} (hfound : resolveWithin a name n id = some (owner, found)) :
    a.Reaches name id owner := by
  induction n generalizing id with
  | zero => cases hfound
  | succ n ih =>
    obtain ⟨frame, hframe, ⟨rfl, -⟩ | ⟨outer, hunbound, houter, hfound⟩⟩ :=
      resolveWithin_succ_cases hfound
    · exact .refl
    · exact .head ⟨frame, hframe, hunbound, houter⟩ (ih hfound)

/-- A lookup that goes on finds what the lookup from the next frame finds. -/
theorem Acyclic.resolve?_of_passes (hacyclic : a.Acyclic) {name : String}
    {inner outer : FrameId} (hpasses : a.Passes name inner outer) :
    a.resolve? inner name = a.resolve? outer name := by
  obtain ⟨frame, hframe, hunbound, houter⟩ := hpasses
  rw [← hacyclic.resolveWithin_eq inner name (Nat.le_succ a.frames.size), resolveWithin]
  simp only [hframe, hunbound, houter]
  rfl

theorem Acyclic.resolve?_of_reaches (hacyclic : a.Acyclic) {name : String}
    {id target : FrameId} (hreaches : a.Reaches name id target) :
    a.resolve? id name = a.resolve? target name := by
  induction hreaches using Relation.ReflTransGen.head_induction_on with
  | refl => rfl
  | head hpasses _ ih => exact (hacyclic.resolve?_of_passes hpasses).trans ih

/-- A lookup finds the nearest binding, and finds one if there is one. -/
theorem Acyclic.resolve?_eq_some_iff (hacyclic : a.Acyclic) {name : String}
    {id owner : FrameId} {found : Binding α} :
    a.resolve? id name = some (owner, found) ↔
      a.Reaches name id owner ∧
        ∃ frame, a.frame? owner = some frame ∧
          find? name frame.bindings = some found := by
  constructor
  · exact fun hfound =>
      ⟨reaches_of_resolveWithin hfound, frame?_of_resolveWithin hfound⟩
  · rintro ⟨hreaches, frame, hframe, hfound⟩
    rw [hacyclic.resolve?_of_reaches hreaches]
    exact resolve?_of_find? hframe hfound

theorem Acyclic.resolves_iff (hacyclic : a.Acyclic) {name : String}
    {id owner : FrameId} :
    a.Resolves name id owner ↔ ∃ found, a.resolve? id name = some (owner, found) := by
  simp only [hacyclic.resolve?_eq_some_iff, Resolves, Option.isSome_iff_exists]
  constructor
  · rintro ⟨hreaches, frame, hframe, found, hfound⟩
    exact ⟨found, hreaches, frame, hframe, hfound⟩
  · rintro ⟨found, hreaches, frame, hframe, hfound⟩
    exact ⟨hreaches, frame, hframe, found, hfound⟩

/-! ### A new value for a bound name -/

/-- What a lookup finds once the name has a new value in the frame `owner`. -/
def revalue (owner : FrameId) (name : String) (value : α) (other : String)
    (found : FrameId × Binding α) : FrameId × Binding α :=
  if found.1 = owner ∧ other = name then (found.1, { found.2 with value }) else found

theorem find?_rebind (name other : String) (value : α) (bindings : Bindings α) :
    find? other (rebind name value bindings) =
      (find? other bindings).map fun b =>
        if other = name then { b with value } else b := by
  by_cases hother : other = name
  · subst hother
    simp only [if_true]
    exact find?_rebind_self other value bindings
  · simp only [if_neg hother, Option.map_id']
    exact find?_rebind_of_ne hother value bindings

theorem resolveWithin_rebind (owner : FrameId) (name : String) (value : α)
    (other : String) (n : Nat) (id : FrameId) :
    resolveWithin (a.modifyFrame owner fun frame =>
        { frame with bindings := rebind name value frame.bindings }) other n id =
      (resolveWithin a other n id).map (revalue owner name value other) := by
  induction n generalizing id with
  | zero => rfl
  | succ n ih =>
    unfold resolveWithin
    rw [frame?_modifyFrame]
    by_cases hid : id = owner
    · subst hid
      rw [if_pos rfl]
      cases a.frame? id with
      | none => rfl
      | some frame =>
        simp only [Option.map_some, find?_rebind]
        cases find? other frame.bindings with
        | some b =>
          by_cases hother : other = name <;> simp [revalue, hother]
        | none =>
          cases frame.outer with
          | none => rfl
          | some outer => exact ih outer
    · rw [if_neg hid]
      cases a.frame? id with
      | none => rfl
      | some frame =>
        cases hfound : find? other frame.bindings with
        | some b => simp [hfound, revalue, hid]
        | none =>
          cases houter : frame.outer with
          | none => simp [hfound, houter]
          | some outer => simpa [hfound, houter] using ih outer

/-- What is found after an assignment to a name that is bound in `owner`. -/
theorem resolve?_update {id owner : FrameId} {name : String} {found : Binding α}
    (hfound : a.resolve? id name = some (owner, found)) (value : α) (other : FrameId)
    (otherName : String) :
    (a.update id name value).2.resolve? other otherName =
      (a.resolve? other otherName).map (revalue owner name value otherName) := by
  rw [update, hfound]
  simp only [resolve?, size_modifyFrame]
  exact resolveWithin_rebind owner name value otherName _ other

theorem update_of_resolve?_eq_none {id : FrameId} {name : String}
    (hnone : a.resolve? id name = none) (value : α) :
    a.update id name value = (false, a) := by
  rw [update, hnone]

theorem update_found_iff (id : FrameId) (name : String) (value : α) :
    (a.update id name value).1 = true ↔ (a.get? id name).isSome := by
  rw [update, get?, Option.isSome_map]
  cases a.resolve? id name <;> simp

/-- An assignment is seen from where the name resolves to the same frame. -/
theorem Acyclic.get?_update_of_resolves (hacyclic : a.Acyclic) {id other owner : FrameId}
    {name : String} (hid : a.Resolves name id owner)
    (hother : a.Resolves name other owner) (value : α) :
    (a.update id name value).2.get? other name = some value := by
  obtain ⟨found, hfound⟩ := hacyclic.resolves_iff.mp hid
  obtain ⟨seen, hseen⟩ := hacyclic.resolves_iff.mp hother
  rw [get?, resolve?_update hfound, hseen]
  simp [revalue]

/-- An assignment is not seen through another name, nor from where the name resolves to
another frame. -/
theorem Acyclic.get?_update_of_not_resolves (hacyclic : a.Acyclic)
    {id other : FrameId} {name otherName : String}
    (hothers : ¬ (otherName = name ∧
      ∃ owner, a.Resolves name id owner ∧ a.Resolves name other owner)) (value : α) :
    (a.update id name value).2.get? other otherName = a.get? other otherName := by
  cases hfound : a.resolve? id name with
  | none => rw [update_of_resolve?_eq_none hfound]
  | some ownerAndBinding =>
    obtain ⟨owner, found⟩ := ownerAndBinding
    rw [get?, get?, resolve?_update hfound, Option.map_map]
    refine Option.map_congr fun seen hseen => ?_
    have hseen : a.resolve? other otherName = some (seen.1, seen.2) := hseen
    rw [Function.comp_apply, revalue, if_neg]
    rintro ⟨hsame, rfl⟩
    exact hothers ⟨rfl, owner, hacyclic.resolves_iff.mpr ⟨found, hfound⟩,
      hacyclic.resolves_iff.mpr ⟨seen.2, hsame ▸ hseen⟩⟩

/-- An assignment makes and unmakes no constants. -/
theorem isConstant_update (id other : FrameId) (name otherName : String) (value : α) :
    (a.update id name value).2.isConstant other otherName =
      a.isConstant other otherName := by
  cases hfound : a.resolve? id name with
  | none => rw [update_of_resolve?_eq_none hfound]
  | some ownerAndBinding =>
    rw [isConstant, isConstant, resolve?_update hfound, Option.any_map]
    congr 1
    funext seen
    rw [revalue]
    split <;> rfl

theorem isLocalConstant_update (id other : FrameId) (name otherName : String)
    (value : α) :
    (a.update id name value).2.isLocalConstant other otherName =
      a.isLocalConstant other otherName := by
  cases hfound : a.resolve? id name with
  | none => rw [update_of_resolve?_eq_none hfound]
  | some ownerAndBinding =>
    rw [update, hfound, isLocalConstant, isLocalConstant, frame?_modifyFrame]
    split
    · next hother =>
      subst hother
      rw [Option.any_map]
      rfl
    · rfl

/-! ### A new binding -/

/-- Binding a name moves no frame into another. -/
theorem Acyclic.bind (hacyclic : a.Acyclic) (slot : FrameId) (b : Binding α) :
    (a.bind slot b).Acyclic := by
  refine hacyclic.of_inside ?_
  rintro inner outer ⟨frame, hframe, houter⟩
  rw [Arena.bind, frame?_modifyFrame] at hframe
  split at hframe
  · next hinner =>
    obtain ⟨old, hold, rfl⟩ := Option.map_eq_some_iff.mp hframe
    exact ⟨old, hinner ▸ hold, houter⟩
  · exact ⟨frame, hframe, houter⟩

theorem resolve?_bind_slot {slot : FrameId} (hslot : (a.frame? slot).isSome)
    (b : Binding α) : (a.bind slot b).resolve? slot b.name = some (slot, b) := by
  obtain ⟨frame, hframe⟩ := Option.isSome_iff_exists.mp hslot
  have hbound : (a.bind slot b).frame? slot =
      some { frame with bindings := put b frame.bindings } := by
    rw [Arena.bind, frame?_modifyFrame_self, hframe, Option.map_some]
  exact resolve?_of_find? hbound (find?_put_self b frame.bindings)

/-- A new binding is what is found from where lookups get to its frame. -/
theorem Acyclic.resolve?_bind_of_reaches (hacyclic : a.Acyclic) {slot id : FrameId}
    (hslot : (a.frame? slot).isSome) {b : Binding α}
    (hreaches : a.Reaches b.name id slot) :
    (a.bind slot b).resolve? id b.name = some (slot, b) := by
  induction hreaches using Relation.ReflTransGen.head_induction_on with
  | refl => exact resolve?_bind_slot hslot b
  | @head inner outer hpasses _ ih =>
    by_cases hinner : inner = slot
    · exact hinner ▸ resolve?_bind_slot hslot b
    · have hsame : (a.bind slot b).Passes b.name inner outer := by
        obtain ⟨frame, hframe, hrest⟩ := hpasses
        refine ⟨frame, ?_, hrest⟩
        rw [Arena.bind, frame?_modifyFrame, if_neg hinner, hframe]
      rw [(hacyclic.bind slot b).resolve?_of_passes hsame, ih]

/-- A new binding changes no lookup that does not get to its frame. -/
theorem resolveWithin_bind_of_not_reaches {slot id : FrameId} {b : Binding α}
    (hreaches : ¬ a.Reaches b.name id slot) (n : Nat) :
    resolveWithin (a.bind slot b) b.name n id = resolveWithin a b.name n id := by
  induction n generalizing id with
  | zero => rfl
  | succ n ih =>
    have hid : id ≠ slot := fun hid => hreaches (hid ▸ .refl)
    unfold resolveWithin
    rw [Arena.bind, frame?_modifyFrame, if_neg hid]
    cases hframe : a.frame? id with
    | none => rfl
    | some frame =>
      cases hfound : find? b.name frame.bindings with
      | some seen => simp [hfound]
      | none =>
        cases houter : frame.outer with
        | none => simp [hfound, houter]
        | some outer =>
          simp only [hfound, houter]
          exact ih fun houts => hreaches (.head ⟨frame, hframe, hfound, houter⟩ houts)

theorem resolve?_bind_of_not_reaches {slot id : FrameId} {name : String} {b : Binding α}
    (hothers : ¬ (name = b.name ∧ a.Reaches b.name id slot)) :
    (a.bind slot b).resolve? id name = a.resolve? id name := by
  by_cases hname : name = b.name
  · subst hname
    rw [resolve?, resolve?, Arena.bind, size_modifyFrame, ← Arena.bind]
    exact resolveWithin_bind_of_not_reaches (fun hreaches => hothers ⟨rfl, hreaches⟩) _
  · exact resolve?_bind_of_ne hname slot id

/-! ### Both kinds of assignment -/

/-- In an acyclic arena every lookup ends by itself, at the nearest frame that binds the
name.  To assign to a name finds a binding exactly if there is one to be seen, and gives
the new value to that name as seen from the frames where it resolves to the same frame;
all else that can be seen from any frame, and what is constant, stays.  To bind a name in
a frame gives the value to that name, not a constant, as seen from the frames whose chain
gets to this frame before any other that binds the name; all else that can be seen from
any frame stays, so also the binding that the frames further out have. -/
theorem assignment_touches_one_binding (hacyclic : a.Acyclic) {id : FrameId}
    (hid : (a.frame? id).isSome) (name : String) (value : α) :
    (∀ other otherName n, a.frames.size ≤ n →
      resolveWithin a otherName n other = a.resolve? other otherName) ∧
    (((a.update id name value).1 = true ↔ (a.get? id name).isSome) ∧
      (∀ other otherName,
        (otherName = name ∧
          ∃ owner, a.Resolves name id owner ∧ a.Resolves name other owner) →
        (a.update id name value).2.get? other otherName = some value) ∧
      (∀ other otherName,
        ¬ (otherName = name ∧
          ∃ owner, a.Resolves name id owner ∧ a.Resolves name other owner) →
        (a.update id name value).2.get? other otherName = a.get? other otherName) ∧
      ∀ other otherName,
        (a.update id name value).2.isConstant other otherName =
          a.isConstant other otherName ∧
        (a.update id name value).2.isLocalConstant other otherName =
          a.isLocalConstant other otherName) ∧
    (∀ other otherName, otherName = name ∧ a.Reaches name other id →
      (a.set id name value).get? other otherName = some value ∧
      (a.set id name value).isConstant other otherName = false) ∧
    (∀ other otherName, ¬ (otherName = name ∧ a.Reaches name other id) →
      (a.set id name value).get? other otherName = a.get? other otherName ∧
      (a.set id name value).isConstant other otherName =
        a.isConstant other otherName) ∧
    (a.set id name value).get? id name = some value ∧
    ∀ outer, Relation.TransGen a.Inside id outer →
      (a.set id name value).get? outer name = a.get? outer name := by
  have hbound : ∀ other otherName, otherName = name ∧ a.Reaches name other id →
      (a.set id name value).resolve? other otherName =
        some (id, { name, value, constant := false }) := by
    rintro other _ ⟨rfl, hreaches⟩
    exact hacyclic.resolve?_bind_of_reaches hid hreaches
  have hkept : ∀ other otherName, ¬ (otherName = name ∧ a.Reaches name other id) →
      (a.set id name value).resolve? other otherName = a.resolve? other otherName :=
    fun other otherName hothers => resolve?_bind_of_not_reaches hothers
  refine ⟨fun other otherName n hn => hacyclic.resolveWithin_eq other otherName hn,
    ⟨update_found_iff id name value, ?_, ?_, ?_⟩, ?_, ?_, ?_, ?_⟩
  · rintro other _ ⟨rfl, owner, howner, hother⟩
    exact hacyclic.get?_update_of_resolves howner hother value
  · exact fun other otherName hothers =>
      hacyclic.get?_update_of_not_resolves hothers value
  · exact fun other otherName => ⟨isConstant_update id other name otherName value,
      isLocalConstant_update id other name otherName value⟩
  · intro other otherName hreaches
    simp [get?, isConstant, hbound other otherName hreaches]
  · intro other otherName hothers
    simp [get?, isConstant, hkept other otherName hothers]
  · simp [get?, hbound id name ⟨rfl, .refl⟩]
  · intro outer hinside
    -- A frame further out whose chain came back would close a circle.
    have hothers : ¬ (name = name ∧ a.Reaches name outer id) := fun hreaches =>
      hacyclic id (hinside.trans_left hreaches.2.around)
    simp [get?, hkept outer name hothers]

/-- The frame 2 sees through the frame 1 what the root binds; the frame 3 has bound the
name itself, as a constant. -/
theorem assignment_touches_one_binding_shadowed :
    let a : Arena Nat :=
      ((((new.set 0 "x" 1).child 0).2.child 1).2.child 0).2.setConstant 3 "x" 9
    a.Acyclic ∧ (a.frame? 1).isSome ∧
      (a.update 1 "x" 7).1 = true ∧
      (a.update 1 "x" 7).2.get? 2 "x" = some 7 ∧
      (a.update 1 "x" 7).2.get? 3 "x" = some 9 ∧
      (a.update 1 "x" 7).2.isConstant 3 "x" = true ∧
      (a.set 1 "x" 7).get? 2 "x" = some 7 ∧
      (a.set 1 "x" 7).get? 3 "x" = some 9 ∧
      (a.set 1 "x" 7).get? 0 "x" = some 1 := by
  intro a
  have hacyclic : a.Acyclic := acyclic_of_descending (by decide)
  have hinside : a.Inside 1 0 := ⟨_, rfl, rfl⟩
  have hfirst : a.Passes "x" 1 0 := ⟨_, rfl, rfl, rfl⟩
  have hsecond : a.Passes "x" 2 1 := ⟨_, rfl, rfl, rfl⟩
  have hroot : ∃ frame, a.frame? 0 = some frame ∧ (find? "x" frame.bindings).isSome :=
    ⟨_, rfl, rfl⟩
  -- The chain of the frame 3 ends at a frame that binds the name: it gets nowhere else.
  have hthird : ∀ target, a.Reaches "x" 3 target → target = 3 := by
    intro target hreaches
    rcases Relation.ReflTransGen.cases_head hreaches with rfl | ⟨_, hpasses, -⟩
    · rfl
    · obtain ⟨frame, hframe, hunbound, -⟩ := hpasses
      cases hframe
      cases hunbound
  obtain ⟨-, ⟨hfound, hsame, hothers, hconstants⟩, hseen, hunseen, -, houtside⟩ :=
    assignment_touches_one_binding hacyclic (show (a.frame? 1).isSome by decide) "x" 7
  refine ⟨hacyclic, by decide, hfound.mpr (by decide), ?_, ?_, ?_, ?_, ?_, ?_⟩
  · exact hsame 2 "x" ⟨rfl, 0, ⟨.single hfirst, hroot⟩,
      .head hsecond (.single hfirst), hroot⟩
  · refine hothers 3 "x" ?_
    rintro ⟨-, owner, howner, hother⟩
    obtain rfl := hthird owner hother.1
    obtain ⟨found, hfound⟩ := hacyclic.resolves_iff.mp howner
    cases hfound
  · exact (hconstants 3 "x").1
  · exact (hseen 2 "x" ⟨rfl, .single hsecond⟩).1
  · refine (hunseen 3 "x" ?_).1
    rintro ⟨-, hreaches⟩
    exact absurd (hthird 1 hreaches) (by decide)
  · exact houtside 0 (.single hinside)

end Script.Scope.Arena
