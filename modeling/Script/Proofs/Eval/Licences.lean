import Script.Proofs.Eval.Nesting
import Script.Proofs.Eval.Notes
import Script.Proofs.Value.Contents

/-!
# What a computation may do to the frames that it finds

A computation gives names new values, and it binds names in the frames that it opens
itself.  Of the frames that it finds it may bind names in one at most, which is the
frame that it is evaluated in.  Its licence says in which one, and which names.

`Licensed` says of the machines before and after that the second one comes from the
first by steps within a licence.  `Abides` says so of a computation.  It also says
that another computation does the same, as long as both stay in a region that steps
within the licence do not leave.
-/

namespace Script

open Scope (Arena Binding FrameId HoldId)

/-- What a computation may do to the frames that it finds, besides giving names that
are no constants new values. -/
inductive Licence where
  | values
  /-- It may bind names in the frame that are not bound where it can be seen. -/
  | introduce (frame : FrameId)
  /-- It may bind names in the frame that are not constants of it. -/
  | declare (frame : FrameId)
  /-- It may bind whatever names in the frame. -/
  | setUp (frame : FrameId)

/-- What the first licence allows the second one allows too. -/
inductive Licence.Within : Licence → Licence → Prop where
  | refl (l : Licence) : Within l l
  | values (l : Licence) : Within .values l
  | introduceDeclare (frame : FrameId) : Within (.introduce frame) (.declare frame)
  | introduceSetUp (frame : FrameId) : Within (.introduce frame) (.setUp frame)
  | declareSetUp (frame : FrameId) : Within (.declare frame) (.setUp frame)

namespace Machine

/-- A change that leaves the frames alone. -/
inductive Silent : Machine → Machine → Prop where
  | heap (m : Machine) {heap : Heap} (hstep : m.heap.Step heap) :
    Silent m { m with heap }
  | read (m : Machine) (input : List Char) : Silent m { m with input }
  | print (m : Machine) (output : String) : Silent m { m with output }
  | note (m : Machine) (problem : Problem) (loc : Location) :
    Silent m { m with advisories := Eval.noted problem loc m }

theorem Silent.change {m m' : Machine} (hsilent : Silent m m') : Change m m' := by
  cases hsilent with
  | heap hstep => exact .heap m _
  | read input => exact .read m input
  | print output => exact .print m output
  | note problem loc => exact .note m _

theorem Silent.scopes_eq {m m' : Machine} (hsilent : Silent m m') :
    m'.scopes = m.scopes := by
  cases hsilent <;> rfl

/-- The second machine comes from the first by steps within the licence.  What is
opened on the way is closed again, and a frame may be set up while it is open.  An
owner of a hold may go at any time, as long as the owners that are kept stay. -/
inductive Licensed (limit : Nat) (kept : Array Nat) :
    Licence → Machine → Machine → Prop where
  | rest (l : Licence) (m : Machine) : Licensed limit kept l m m
  | silent {m m' : Machine} (l : Licence) (hsilent : Silent m m') :
      Licensed limit kept l m m'
  | pin (l : Licence) (m : Machine) (frame : FrameId) :
      Licensed limit kept l m { m with scopes := (m.scopes.pin frame).2 }
  | drop (l : Licence) (m : Machine) (hold : HoldId)
      (hmore : kept.getD hold 0 < m.scopes.holds.getD hold 0) :
      Licensed limit kept l m { m with scopes := m.scopes.drop hold }
  | update (l : Licence) (m : Machine) (frame : FrameId) (name : String)
      (value : Value) (hvariable : m.scopes.isConstant frame name = false) :
      Licensed limit kept l m { m with scopes := (m.scopes.update frame name value).2 }
  | introduce (m : Machine) (frame : FrameId) (name : String) (value : Value)
      (hunbound : m.scopes.resolve? frame name = none) :
      Licensed limit kept (.introduce frame) m
        { m with scopes := m.scopes.set frame name value }
  | declare (m : Machine) (frame : FrameId) (b : Binding Value)
      (hvariable : m.scopes.isLocalConstant frame b.name = false) :
      Licensed limit kept (.declare frame) m { m with scopes := m.scopes.bind frame b }
  | setUp (m : Machine) (frame : FrameId) (name : String) (value : Value) :
      Licensed limit kept (.setUp frame) m
        { m with scopes := m.scopes.set frame name value }
  | widen {l l' : Licence} {m m' : Machine} (hwithin : l.Within l')
      (hinner : Licensed limit kept l m m') : Licensed limit kept l' m m'
  | seq {l : Licence} {m m' m'' : Machine} (hfirst : Licensed limit kept l m m')
      (hsecond : Licensed limit kept l m' m'') : Licensed limit kept l m m''
  | frame {m m' : Machine} (l : Licence) (outer : FrameId)
      (hinner : Licensed limit kept (.setUp (m.scopes.child outer).1)
        (m.openFrame outer) m') :
      Licensed limit kept l m (m'.closeFrame (m.scopes.child outer).1)
  | call {l : Licence} {m m' : Machine} (hlimit : m.callDepth < limit)
      (hinner : Licensed limit kept l m.openCall m') : Licensed limit kept l m m'.closeCall
  | loop {l : Licence} {m m' : Machine}
      (hinner : Licensed limit kept l m.openLoop m') : Licensed limit kept l m m'.closeLoop

variable {limit : Nat} {kept : Array Nat}

theorem Licensed.nested {l : Licence} {m m' : Machine}
    (hlicensed : Licensed limit kept l m m') : Nested limit m m' := by
  induction hlicensed with
  | rest l m => exact .rest m
  | silent l hsilent => exact .change hsilent.change
  | pin l m frame => exact .change (.pin m frame)
  | drop l m hold => exact .change (.drop m hold)
  | update l m frame name value => exact .change (.update m frame name value)
  | introduce m frame name value => exact .change (.bind m frame _)
  | declare m frame b => exact .change (.bind m frame b)
  | setUp m frame name value => exact .change (.bind m frame _)
  | widen _ _ ih => exact ih
  | seq _ _ ihfirst ihsecond => exact ihfirst.seq ihsecond
  | frame l outer _ ih => exact .frame outer ih
  | call hlimit _ ih => exact .call hlimit ih
  | loop _ ih => exact .loop ih

/-- Machines that a run within a licence does not leave. -/
structure Region (limit : Nat) (kept : Array Nat) where
  Holds : Licence → Machine → Prop
  stays : ∀ {l : Licence} {m m' : Machine}, Holds l m → Licensed limit kept l m m' →
    Holds l m'
  narrows : ∀ {l l' : Licence} {m : Machine}, l.Within l' → Holds l' m → Holds l m
  opens : ∀ {l : Licence} {m : Machine} (outer : FrameId), Holds l m →
    Holds (.setUp (m.scopes.child outer).1) (m.openFrame outer)
  calls : ∀ {l : Licence} {m : Machine}, Holds l m → Holds l m.openCall
  loops : ∀ {l : Licence} {m : Machine}, Holds l m → Holds l m.openLoop

/-- All machines. -/
def Region.everywhere (limit : Nat) (kept : Array Nat) : Region limit kept where
  Holds := fun _ _ => True
  stays := fun _ _ => trivial
  narrows := fun _ _ => trivial
  opens := fun _ _ => trivial
  calls := fun _ => trivial
  loops := fun _ => trivial

end Machine

open Machine (Licensed Region Silent)

namespace Eval

variable {α β : Type} {limit : Nat} {kept : Array Nat} {R : Region limit kept}
  {l l' : Licence}

/-- On the machines of the region the second computation does what the first one
does, and that is within the licence. -/
def Abides (R : Region limit kept) (l : Licence) (c₁ c₂ : Eval α) : Prop :=
  ∀ m, R.Holds l m →
    c₂ m = c₁ m ∧ ∀ m', (c₁ m).machine? = some m' → Licensed limit kept l m m'

/-- Every value that the computation gives has the property. -/
def Gives (c : Eval α) (Q : α → Prop) : Prop :=
  ∀ m value m', c m = .done value m' → Q value

theorem gives_pure {Q : α → Prop} {value : α} (hvalue : Q value) :
    (Pure.pure value : Eval α).Gives Q := by
  intro m given m' hdone
  cases hdone
  exact hvalue

theorem gives_fail {Q : α → Prop} (problem : Problem) (loc : Location) :
    (fail problem loc : Eval α).Gives Q :=
  nofun

theorem gives_bind {Q : β → Prop} (c : Eval α) {f : α → Eval β}
    (hf : ∀ value, (f value).Gives Q) : (c >>= f).Gives Q := by
  intro m value m' hdone
  change Eval.bind c f m = _ at hdone
  unfold Eval.bind at hdone
  split at hdone
  · exact hf _ _ _ _ hdone
  · cases hdone
  · cases hdone

/-! ### Computations without parts -/

theorem abides_of_licensed {c : Eval α}
    (hc : ∀ m m', (c m).machine? = some m' → Licensed limit kept l m m') :
    Abides R l c c :=
  fun m _ => ⟨rfl, hc m⟩

theorem abides_of_unchanged {c : Eval α}
    (hsame : ∀ m m', (c m).machine? = some m' → m' = m) : Abides R l c c := by
  refine abides_of_licensed fun m m' hend => ?_
  rw [hsame m m' hend]
  exact .rest l m

theorem abides_of_silent {c : Eval α}
    (hc : ∀ m m', (c m).machine? = some m' → Silent m m') : Abides R l c c :=
  abides_of_licensed fun m m' hend => .silent l (hc m m' hend)

theorem abides_pure (value : α) :
    Abides R l (Pure.pure value : Eval α) (Pure.pure value) :=
  abides_of_unchanged fun _ _ hend => (Option.some.inj hend).symm

theorem abides_leave (exit : Exit) :
    Abides R l (leave exit : Eval α) (leave exit) :=
  abides_of_unchanged fun _ _ hend => (Option.some.inj hend).symm

theorem abides_fail (problem : Problem) (loc : Location) :
    Abides R l (fail problem loc : Eval α) (fail problem loc) :=
  abides_leave _

theorem abides_outOfBound : Abides R l (outOfBound : Eval α) outOfBound :=
  abides_of_unchanged fun _ _ hend => nomatch hend

theorem abides_read (f : Machine → α) : Abides R l (read f) (read f) :=
  abides_of_unchanged fun _ _ hend => (Option.some.inj hend).symm

theorem abides_askHeap (loc : Location) (f : Heap → Except Problem α) :
    Abides R l (askHeap loc f) (askHeap loc f) := by
  refine abides_of_unchanged fun m m' hend => ?_
  unfold askHeap at hend
  split at hend <;> exact (Option.some.inj hend).symm

theorem abides_onHeap {f : Heap → α × Heap} (hf : ∀ h : Heap, h.Step (f h).2) :
    Abides R l (onHeap f) (onHeap f) := by
  refine abides_of_silent fun m m' hend => ?_
  rw [← Option.some.inj hend]
  exact .heap m (hf m.heap)

theorem abides_lookup? (frame : FrameId) (name : String) :
    Abides R l (lookup? frame name) (lookup? frame name) :=
  abides_read _

/-- A frame that is set up takes any name. -/
theorem abides_define (frame : FrameId) (name : String) (value : Value) :
    Abides R (.setUp frame) (define frame name value) (define frame name value) := by
  refine abides_of_licensed fun m m' hend => ?_
  rw [← Option.some.inj hend]
  exact .setUp m frame name value

theorem silent_advise (problem : Problem) (loc : Location) {m m' : Machine}
    (hend : (advise problem loc m).machine? = some m') : Silent m m' := by
  rw [advise_eq] at hend
  rw [← Option.some.inj hend]
  exact .note m problem loc

theorem abides_advise (problem : Problem) (loc : Location) :
    Abides R l (advise problem loc) (advise problem loc) :=
  abides_of_silent fun _ _ hend => silent_advise problem loc hend

theorem abides_print (text : String) : Abides R l (print text) (print text) := by
  refine abides_of_silent fun m m' hend => ?_
  rw [← Option.some.inj hend]
  exact .print m _

theorem abides_readLine : Abides R l readLine readLine := by
  refine abides_of_silent fun m m' hend => ?_
  rw [← Option.some.inj hend]
  exact .read m _

/-! ### Computations one after another -/

theorem Abides.widen {c₁ c₂ : Eval α} (hwithin : l.Within l')
    (hc : Abides R l c₁ c₂) : Abides R l' c₁ c₂ := by
  intro m hm
  obtain ⟨hsame, hlicensed⟩ := hc m (R.narrows hwithin hm)
  exact ⟨hsame, fun m' hend => .widen hwithin (hlicensed m' hend)⟩

/-- What only gives names new values does so under any licence. -/
theorem Abides.ofValues {c₁ c₂ : Eval α} (hc : Abides R .values c₁ c₂) :
    Abides R l c₁ c₂ :=
  hc.widen (.values l)

/-- The second computation need only keep to the licence for values that the first
one can give. -/
theorem Abides.bindGiven {Q : α → Prop} {c₁ c₂ : Eval α} {f₁ f₂ : α → Eval β}
    (hc : Abides R l c₁ c₂) (hgives : c₁.Gives Q)
    (hf : ∀ value, Q value → Abides R l (f₁ value) (f₂ value)) :
    Abides R l (c₁ >>= f₁) (c₂ >>= f₂) := by
  intro m hm
  obtain ⟨hsame, hfirst⟩ := hc m hm
  change Eval.bind c₂ f₂ m = Eval.bind c₁ f₁ m ∧
    ∀ m', (Eval.bind c₁ f₁ m).machine? = some m' → Licensed limit kept l m m'
  unfold Eval.bind
  rw [hsame]
  cases hdone : c₁ m with
  | done value between =>
    have hbetween : Licensed limit kept l m between := hfirst between (by rw [hdone]; rfl)
    obtain ⟨hsameRest, hsecond⟩ :=
      hf value (hgives m value between hdone) between (R.stays hm hbetween)
    exact ⟨hsameRest, fun m' hend => .seq hbetween (hsecond m' hend)⟩
  | left exit between =>
    exact ⟨rfl, fun m' hend => hfirst m' (by rw [hdone]; exact hend)⟩
  | exhausted => exact ⟨rfl, nofun⟩

theorem Abides.bind {c₁ c₂ : Eval α} {f₁ f₂ : α → Eval β}
    (hc : Abides R l c₁ c₂) (hf : ∀ value, Abides R l (f₁ value) (f₂ value)) :
    Abides R l (c₁ >>= f₁) (c₂ >>= f₂) :=
  hc.bindGiven (Q := fun _ => True) (fun _ _ _ _ => trivial) fun value _ => hf value

theorem Abides.ite {b : Prop} [Decidable b] {c₁ c₂ d₁ d₂ : Eval α}
    (hc : Abides R l c₁ c₂) (hd : Abides R l d₁ d₂) :
    Abides R l (if b then c₁ else d₁) (if b then c₂ else d₂) := by
  split
  · exact hc
  · exact hd

theorem abides_adviseAll (problems : List Problem) (loc : Location) :
    Abides R l (adviseAll problems loc) (adviseAll problems loc) := by
  induction problems with
  | nil => exact abides_pure ()
  | cons problem problems ih =>
    exact Abides.bind (abides_advise problem loc) fun _ => ih

theorem Abides.goesOn {body₁ body₂ : Eval Value} (hbody : Abides R l body₁ body₂) :
    Abides R l (goesOn body₁) (goesOn body₂) := by
  intro m hm
  obtain ⟨hsame, hlicensed⟩ := hbody m hm
  refine ⟨by unfold Eval.goesOn; rw [hsame], fun m' hend => hlicensed m' ?_⟩
  unfold Eval.goesOn at hend
  split at hend <;> simp_all [Outcome.machine?]

theorem Abides.complete {body₁ body₂ : Eval Value}
    (hbody : Abides R l body₁ body₂) :
    Abides R l (complete body₁) (complete body₂) := by
  intro m hm
  obtain ⟨hsame, hlicensed⟩ := hbody m hm
  refine ⟨by unfold Eval.complete; rw [hsame], fun m' hend => hlicensed m' ?_⟩
  unfold Eval.complete at hend
  split at hend <;> simp_all [Outcome.machine?]

theorem Abides.orElse {c₁ c₂ : Eval α} {handler₁ handler₂ : Problem → Eval α}
    (hc : Abides R l c₁ c₂)
    (hhandler : ∀ problem, Abides R l (handler₁ problem) (handler₂ problem)) :
    Abides R l (orElse c₁ handler₁) (orElse c₂ handler₂) := by
  intro m hm
  obtain ⟨hsame, hfirst⟩ := hc m hm
  unfold Eval.orElse
  rw [hsame]
  split
  · next problem loc between hfailed =>
    have hbetween : Licensed limit kept l m between :=
      hfirst between (by rw [hfailed]; rfl)
    obtain ⟨hsameHandler, hsecond⟩ :=
      hhandler problem between (R.stays hm hbetween)
    exact ⟨hsameHandler, fun m' hend => .seq hbetween (hsecond m' hend)⟩
  · exact ⟨rfl, hfirst⟩

/-! ### Regions of a run -/

theorem ending_congr {c₁ c₂ : Eval α} {m : Machine} (last : Machine → Machine)
    (hsame : c₂ m = c₁ m) : ending c₂ last m = ending c₁ last m := by
  unfold ending
  rw [hsame]

theorem Abides.inChild {outer : FrameId} {c₁ c₂ : FrameId → Eval α}
    (hc : ∀ frame, Abides R (.setUp frame) (c₁ frame) (c₂ frame)) :
    Abides R l (inChild outer c₁) (inChild outer c₂) := by
  intro m hm
  obtain ⟨hsame, hlicensed⟩ := hc (m.scopes.child outer).1 _ (R.opens outer hm)
  refine ⟨ending_congr _ hsame, fun m' hend => ?_⟩
  change (ending (c₁ (m.scopes.child outer).1) _ (m.openFrame outer)).machine? =
    some m' at hend
  rw [machine?_ending, Option.map_eq_some_iff] at hend
  obtain ⟨inner, hinner, rfl⟩ := hend
  exact .frame l outer (hlicensed inner hinner)

theorem Abides.inCall {name : String} {loc : Location} {c₁ c₂ : Eval α}
    (hc : Abides R l c₁ c₂) :
    Abides R l (inCall limit name loc c₁) (inCall limit name loc c₂) := by
  intro m hm
  obtain ⟨hsame, hlicensed⟩ := hc m.openCall (R.calls hm)
  unfold Eval.inCall
  split
  · exact ⟨rfl, fun m' hend => Option.some.inj hend ▸ .rest l m⟩
  · next hlimit =>
    refine ⟨ending_congr _ hsame, fun m' hend => ?_⟩
    rw [machine?_ending, Option.map_eq_some_iff] at hend
    obtain ⟨inner, hinner, rfl⟩ := hend
    exact .call (Nat.lt_of_not_le hlimit) (hlicensed inner hinner)

/-- A loop is entered without fail. -/
theorem enterLoop_done (limit : Nat) (l : Licence) (loc : Location) (m : Machine) :
    ∃ entered, enterLoop loc m = .done () entered ∧
      Licensed limit kept l m.openLoop entered := by
  unfold enterLoop
  simp only
  split
  · exact ⟨_, rfl, .silent l (silent_advise _ loc rfl)⟩
  · exact ⟨_, rfl, .rest l _⟩

theorem Abides.inLoop {loc : Location} {c₁ c₂ : Eval α} (hc : Abides R l c₁ c₂) :
    Abides R l (inLoop loc c₁) (inLoop loc c₂) := by
  intro m hm
  obtain ⟨entered, henter, hentered⟩ := enterLoop_done limit l loc m
  obtain ⟨hsame, hlicensed⟩ := hc entered (R.stays (R.loops hm) hentered)
  unfold Eval.inLoop Eval.bind
  rw [henter]
  refine ⟨ending_congr _ hsame, fun m' hend => ?_⟩
  rw [machine?_ending, Option.map_eq_some_iff] at hend
  obtain ⟨inner, hinner, rfl⟩ := hend
  exact .loop (.seq hentered (hlicensed inner hinner))

end Eval

end Script
