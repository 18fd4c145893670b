import Script.Proofs.Builtin.References
import Script.Proofs.Eval.Calls
import Script.Proofs.Eval.Licences
import Script.Proofs.Scope.Backlog
import Script.Proofs.Scope.Names

/-!
# Machines without dangling references

A machine is whole if its heap is, and if the heap knows all values that are bound in its
frames.  A computation is sound if it leaves a whole machine behind whenever it is given
one, loses none of the containers, and gives a value that the heap then knows.  What a
computation was given before it began may be known only from some heap on, so soundness
is said of the machines that have all containers of that heap.
-/

namespace Script

open Scope (Arena Binding Bindings Frame FrameId find?)
open Std (ExtTreeMap)

instance : Mentioning (Binding Value) := ⟨fun b => mentions b.value⟩
instance : Mentioning (Bindings Value) := ⟨fun bindings => mentions bindings.values⟩
instance : Mentioning (Frame Value) := ⟨fun frame => mentions frame.bindings⟩
/-- The frames of an arena mention what their names are bound to. -/
instance : Mentioning (Arena Value) := ⟨fun a => mentions a.frames⟩
instance : Mentioning Machine := ⟨fun m => mentions m.scopes ++ mentions m.heap⟩

instance : Mentioning Exit where
  mentions
    | .returned v => mentions v
    | _ => []

/-! ### Frames -/

namespace Heap

variable {h : Heap} {a b : Arena Value}

@[simp]
theorem knows_binding {b : Binding Value} : h.Knows b ↔ h.Knows b.value := Iff.rfl

@[simp]
theorem knows_bindings {bindings : Bindings Value} :
    h.Knows bindings ↔ h.Knows bindings.values := Iff.rfl

@[simp]
theorem knows_frame {frame : Frame Value} : h.Knows frame ↔ h.Knows frame.bindings := Iff.rfl

/-- Slots without a frame mention nothing. -/
theorem knows_arena_iff :
    h.Knows a ↔ ∀ id frame, a.frame? id = some frame → h.Knows frame.bindings := by
  have hframes : h.Knows a ↔ h.Knows a.frames := Iff.rfl
  rw [hframes]
  constructor
  · intro hall id frame hframe
    have hid := Arena.lt_size_of_frame? hframe
    rw [Arena.frame?, Array.getD, dif_pos hid] at hframe
    exact knows_option.mp (knows_array.mp hall _ (Array.getElem_mem hid)) frame hframe
  · intro hall
    refine knows_array.mpr fun slot hslot => knows_option.mpr fun frame hframe => ?_
    obtain ⟨id, hid, rfl⟩ := Array.getElem_of_mem hslot
    refine hall id frame ?_
    rw [Arena.frame?, Array.getD, dif_pos hid]
    exact hframe

theorem knows_new : h.Knows (Arena.new : Arena Value) := by
  refine knows_array.mpr fun slot hslot => ?_
  obtain rfl : slot = some { pinned := true } := by simpa [Arena.new] using hslot
  simp

/-- A new frame binds no names. -/
theorem knows_child (ha : h.Knows a) (outer : FrameId) : h.Knows (a.child outer).2 := by
  have hnew : h.Knows (some { outer := some outer } : Option (Frame Value)) := by simp
  unfold Arena.child
  split
  · refine knows_array.mpr fun slot hslot => ?_
    rcases Array.mem_or_eq_of_mem_setIfInBounds hslot with hold | rfl
    · exact knows_array.mp ha slot hold
    · exact hnew
  · exact knows_push ha hnew

/-- No binding is new, so nothing is mentioned that was not before. -/
theorem knows_of_bindings (ha : h.Knows a)
    (hold : ∀ id frame, b.frame? id = some frame →
      ∃ old, a.frame? id = some old ∧ frame.bindings = old.bindings) : h.Knows b := by
  refine knows_arena_iff.mpr fun id frame hframe => ?_
  obtain ⟨old, hframeOld, hsame⟩ := hold id frame hframe
  exact hsame ▸ knows_arena_iff.mp ha id old hframeOld

/-- Frames only go, or are marked. -/
theorem knows_release (ha : h.Knows a) (id : FrameId) : h.Knows (a.release id) :=
  knows_of_bindings ha fun _ _ hframe => Arena.bindings_of_frame?_release hframe

/-- A pin changes the hold of a frame and no binding. -/
theorem knows_pin (ha : h.Knows a) (id : FrameId) : h.Knows (a.pin id).2 := by
  refine knows_of_bindings ha fun other frame hframe => ?_
  have hsame := Arena.bindings_pin (a := a) id other
  rw [hframe, Option.map_some] at hsame
  obtain ⟨old, hold, hbindings⟩ := Option.map_eq_some_iff.mp hsame.symm
  exact ⟨old, hold, hbindings.symm⟩

theorem knows_modifyFrame (ha : h.Knows a) (id : FrameId) {f : Frame Value → Frame Value}
    (hf : ∀ frame, h.Knows frame → h.Knows (f frame)) : h.Knows (a.modifyFrame id f) := by
  refine knows_modify ha id fun slot hslot => knows_option.mpr fun frame hframe => ?_
  obtain ⟨old, rfl, rfl⟩ := Option.map_eq_some_iff.mp hframe
  exact hf old (knows_option.mp hslot old rfl)

/-- The new value takes the place of another one or is added. -/
theorem knows_put {b : Binding Value} {bindings : Bindings Value} (hb : h.Knows b)
    (hbindings : h.Knows bindings) : h.Knows (Scope.put b bindings) :=
  knows_insert (knows_bindings.mp hbindings) (knows_valueless b.name) hb

theorem knows_rebind {value : Value} {bindings : Bindings Value}
    (hvalue : h.Knows value) (hbindings : h.Knows bindings) (name : String) :
    h.Knows (Scope.rebind name value bindings) := by
  refine knows_table.mpr fun other v hv => ⟨knows_valueless other, ?_⟩
  rw [Scope.rebind, ExtTreeMap.getElem?_modify] at hv
  split at hv
  · obtain ⟨old, -, rfl⟩ := Option.map_eq_some_iff.mp hv
    exact hvalue
  · exact (knows_table.mp hbindings other v hv).2

theorem knows_bind_frame (ha : h.Knows a) (id : FrameId) {b : Binding Value}
    (hb : h.Knows b.value) : h.Knows (a.bind id b) :=
  knows_modifyFrame ha id fun _ hframe => knows_put (knows_binding.mpr hb) hframe

/-- The name is bound anew wherever it was found, and nowhere else. -/
theorem knows_update (ha : h.Knows a) (id : FrameId) (name : String) {value : Value}
    (hvalue : h.Knows value) : h.Knows (a.update id name value).2 := by
  unfold Arena.update
  split
  · exact ha
  · exact knows_modifyFrame ha _ fun _ hframe => knows_rebind hvalue hframe name

/-- A value that a name has is mentioned in the frame that binds it. -/
theorem knows_get? (ha : h.Knows a) (id : FrameId) (name : String) :
    h.Knows (a.get? id name) := by
  refine knows_option.mpr fun v hv => ?_
  obtain ⟨⟨owner, b⟩, hfound, rfl⟩ := Option.map_eq_some_iff.mp hv
  obtain ⟨frame, hframe, hb⟩ := Arena.frame?_of_resolveWithin hfound
  obtain ⟨value, hvalue, rfl⟩ := Option.map_eq_some_iff.mp hb
  exact (knows_table.mp (knows_arena_iff.mp ha owner frame hframe) name value hvalue).2

/-- Failures carry texts and numbers only. -/
@[simp]
theorem knows_failed (problem : Problem) (loc : Location) :
    h.Knows (Exit.failed problem loc) :=
  knows_of_mentions rfl

end Heap

/-! ### Machines -/

namespace Machine

variable {m m' m'' : Machine}

/-- Every container that is mentioned is there. -/
def Whole (m : Machine) : Prop := m.heap.Knows m

/-- Whole frames in a whole heap. -/
theorem whole_iff : m.Whole ↔ m.heap.Knows m.scopes ∧ m.heap.Whole := Heap.knows_append

/-- The machine is whole, and has all containers of the heap. -/
structure Keeps (m : Machine) (h : Heap) : Prop where
  within : h.Within m.heap
  whole : m.Whole

theorem Whole.keeps (hm : m.Whole) : m.Keeps m.heap := ⟨.refl _, hm⟩

/-- Containers that have been kept twice have been kept. -/
theorem Keeps.trans {h : Heap} (hfirst : m.Keeps h) (hsecond : m'.Keeps m.heap) :
    m'.Keeps h :=
  ⟨hfirst.within.trans hsecond.within, hsecond.whole⟩

theorem Keeps.heap {h : Heap} (hm : m.Keeps h) : m.heap.Whole := (whole_iff.mp hm.whole).2

theorem Keeps.scopes {h : Heap} (hm : m.Keeps h) : m.heap.Knows m.scopes :=
  (whole_iff.mp hm.whole).1

/-- Another machine with the same heap, which knows its frames. -/
theorem Keeps.of_scopes {h : Heap} (hm : m.Keeps h) (hheap : m'.heap = m.heap)
    (hscopes : m.heap.Knows m'.scopes) : m'.Keeps h := by
  refine ⟨hheap ▸ hm.within, whole_iff.mpr ?_⟩
  rw [hheap]
  exact ⟨hscopes, hm.heap⟩

end Machine

/-- The machine that is left is whole and has all containers of the heap, and it knows
what is given. -/
def Outcome.Sound {α : Type} [Mentioning α] (h : Heap) : Outcome α → Prop
  | .done value m => m.Keeps h ∧ m.heap.Knows value
  | .left exit m => m.Keeps h ∧ m.heap.Knows exit
  | .exhausted => True

/-- However the computation ended, unless the bound ran out. -/
theorem Outcome.Sound.keeps {α : Type} [Mentioning α] {h : Heap} {o : Outcome α}
    {m : Machine} (ho : o.Sound h) (hend : o.machine? = some m) : m.Keeps h := by
  cases o with
  | done value m' => cases hend; exact ho.1
  | left exit m' => cases hend; exact ho.1
  | exhausted => cases hend

/-- What was known before the step in front is known of the whole. -/
theorem Outcome.Sound.trans {α : Type} [Mentioning α] {h : Heap} {m : Machine}
    {o : Outcome α} (hm : m.Keeps h) (ho : o.Sound m.heap) : o.Sound h := by
  cases o with
  | done value m' => exact ⟨hm.trans ho.1, ho.2⟩
  | left exit m' => exact ⟨hm.trans ho.1, ho.2⟩
  | exhausted => trivial

namespace Eval

variable {α β : Type} [Mentioning α] [Mentioning β] {h h' : Heap}

/-- On whole machines with all containers of the heap the computation has a sound
outcome. -/
def Sound (h : Heap) (c : Eval α) : Prop :=
  ∀ m : Machine, m.Keeps h → (c m).Sound m.heap

/-! ### Computations without parts -/

/-- To give a value that is known changes nothing. -/
theorem sound_pure {value : α} (hvalue : h.Knows value) :
    Sound h (Pure.pure value : Eval α) :=
  fun _ hm => ⟨hm.whole.keeps, hvalue.mono hm.within⟩

/-- A value that is no container. -/
theorem sound_plain {v : Value} (hv : v.ref? = none) : Sound h (Pure.pure v : Eval Value) :=
  sound_pure (Heap.knows_of_ref? hv)

theorem sound_leave {exit : Exit} (hexit : h.Knows exit) :
    Sound h (leave exit : Eval α) :=
  fun _ hm => ⟨hm.whole.keeps, hexit.mono hm.within⟩

theorem sound_fail (problem : Problem) (loc : Location) :
    Sound h (fail problem loc : Eval α) :=
  sound_leave (Heap.knows_failed problem loc)

theorem sound_outOfBound : Sound h (outOfBound : Eval α) :=
  fun _ _ => trivial

/-- An answer is sound if the machine knows it, which it may by then. -/
theorem sound_read {f : Machine → α}
    (hf : ∀ m : Machine, m.Keeps h → m.heap.Knows (f m)) : Sound h (read f) :=
  fun m hm => ⟨hm.whole.keeps, hf m hm⟩

/-- The heap that is asked may be a later one than the one that is spoken of. -/
theorem sound_askHeap (loc : Location) {f : Heap → Except Problem α}
    (hf : ∀ g : Heap, g.Whole → h.Within g → g.Knows (f g)) :
    Sound h (askHeap loc f) := by
  intro m hm
  have hanswer := hf m.heap hm.heap hm.within
  unfold askHeap
  split
  · next value hvalue =>
    rw [hvalue] at hanswer
    exact ⟨hm.whole.keeps, hanswer⟩
  · exact ⟨hm.whole.keeps, Heap.knows_failed _ _⟩

/-- A step of a heap has to keep its containers and to know what it gives. -/
theorem sound_onHeap {f : Heap → α × Heap}
    (hf : ∀ g : Heap, g.Whole → h.Within g → g.Extends (f g).2 ∧ (f g).2.Knows (f g).1) :
    Sound h (onHeap f) := by
  intro m hm
  obtain ⟨⟨hmore, hwhole⟩, hvalue⟩ := hf m.heap hm.heap hm.within
  exact ⟨⟨hmore, Machine.whole_iff.mpr ⟨hm.scopes.mono hmore, hwhole⟩⟩, hvalue⟩

/-- A step of the frames leaves the heap as it is. -/
theorem sound_onScopes {f : Arena Value → Arena Value}
    (hf : ∀ (g : Heap) (a : Arena Value), h.Within g → g.Knows a → g.Knows (f a)) :
    Sound h (onScopes f) := by
  intro m hm
  have hscopes := hf m.heap m.scopes hm.within hm.scopes
  exact ⟨hm.whole.keeps.of_scopes rfl hscopes, Heap.knows_valueless ()⟩

theorem sound_lookup? (frame : FrameId) (name : String) :
    Sound h (lookup? frame name) :=
  sound_read fun _ hm => Heap.knows_get? hm.scopes frame name

theorem sound_define (frame : FrameId) (name : String) {value : Value}
    (hvalue : h.Knows value) : Sound h (define frame name value) :=
  sound_onScopes fun _ _ hwithin ha =>
    Heap.knows_bind_frame ha frame (hvalue.mono hwithin)

/-- What changes neither the frames nor the heap. -/
theorem sound_of_same {γ : Type} [Valueless γ] {c : Eval γ}
    (hc : ∀ m, ∃ value m', c m = .done value m' ∧ m'.scopes = m.scopes ∧ m'.heap = m.heap) :
    Sound h c := by
  intro m hm
  obtain ⟨value, m', hdone, hscopes, hheap⟩ := hc m
  rw [hdone]
  exact ⟨hm.whole.keeps.of_scopes hheap (hscopes ▸ hm.scopes), Heap.knows_valueless value⟩

theorem sound_advise (problem : Problem) (loc : Location) :
    Sound h (advise problem loc) :=
  sound_of_same fun m => ⟨(), _, advise_eq problem loc m, rfl, rfl⟩

theorem sound_print (text : String) : Sound h (print text) :=
  sound_of_same fun _ => ⟨(), _, rfl, rfl, rfl⟩

theorem sound_readLine : Sound h readLine :=
  sound_of_same fun _ => ⟨_, _, rfl, rfl, rfl⟩

/-! ### Computations one after another -/

/-- A later heap has more containers, so fewer machines have all of them. -/
theorem Sound.mono {c : Eval α} (hc : Sound h c) (hwithin : h.Within h') : Sound h' c :=
  fun m hm => hc m ⟨hwithin.trans hm.within, hm.whole⟩

/-- What comes next is about the heap that the first step has left. -/
theorem Sound.bind {c : Eval α} {f : α → Eval β} (hc : Sound h c)
    (hf : ∀ h', h.Within h' → ∀ value, h'.Knows value → Sound h' (f value)) :
    Sound h (c >>= f) := by
  intro m hm
  have hfirst := hc m hm
  cases hdone : c m with
  | done value m' =>
    rw [hdone] at hfirst
    obtain ⟨hkept, hvalue⟩ := hfirst
    rw [bind_of_done hdone]
    exact .trans hkept
      (hf m'.heap (hm.within.trans hkept.within) value hvalue m' hkept.whole.keeps)
  | left exit m' =>
    rw [hdone] at hfirst
    rw [bind_of_left hdone]
    exact hfirst
  | exhausted =>
    rw [bind_of_exhausted hdone]
    trivial

/-- A first step that gives nothing with values in it. -/
theorem Sound.next {γ : Type} [Valueless γ] {c : Eval γ} {f : γ → Eval β}
    (hc : Sound h c) (hf : ∀ h', h.Within h' → ∀ x, Sound h' (f x)) : Sound h (c >>= f) :=
  hc.bind fun h' hwithin x _ => hf h' hwithin x

/-- Both branches are sound, so it does not matter which one is taken. -/
theorem Sound.ite {p : Prop} [Decidable p] {c d : Eval α} (hc : Sound h c)
    (hd : Sound h d) : Sound h (if p then c else d) := by
  split
  · exact hc
  · exact hd

theorem sound_adviseAll (problems : List Problem) (loc : Location) :
    Sound h (adviseAll problems loc) := by
  induction problems with
  | nil => exact sound_pure (Heap.knows_valueless ())
  | cons problem problems ih =>
    exact (sound_advise problem loc).next fun _ hwithin _ => ih.mono hwithin

/-- A loop body that is left by `continue` or `break` has given nothing yet. -/
theorem Sound.goesOn {body : Eval Value} (hbody : Sound h body) :
    Sound h (goesOn body) := by
  intro m hm
  have hend := hbody m hm
  unfold Eval.goesOn
  split <;> simp_all [Outcome.Sound]

theorem Sound.complete {body : Eval Value} (hbody : Sound h body) :
    Sound h (complete body) := by
  intro m hm
  have hend := hbody m hm
  have hnull : ∀ g : Heap, g.Knows ({ value := .null, explicit := false } : Completion) :=
    fun g => Heap.knows_of_ref? (v := .null) rfl
  unfold Eval.complete
  split
  · next hdone => rw [hdone] at hend; exact hend
  · next hleft => rw [hleft] at hend; exact hend
  · next hleft => rw [hleft] at hend; exact ⟨hend.1, hnull _⟩
  · next hleft => rw [hleft] at hend; exact ⟨hend.1, hnull _⟩
  · next hleft => rw [hleft] at hend; exact hend
  · trivial

/-- The handler goes on with the machine that the failure has left. -/
theorem Sound.orElse {c : Eval α} {handler : Problem → Eval α} (hc : Sound h c)
    (hhandler : ∀ problem, Sound h (handler problem)) : Sound h (orElse c handler) := by
  intro m hm
  have hfirst := hc m hm
  unfold Eval.orElse
  split
  · next problem loc m' hfailed =>
    rw [hfailed] at hfirst
    exact .trans hfirst.1
      (hhandler problem m' ⟨hm.within.trans hfirst.1.within, hfirst.1.whole⟩)
  · exact hfirst

/-! ### Regions of a run -/

/-- A last step that neither changes the heap nor binds anything. -/
theorem ending_sound {c : Eval α} {last : Machine → Machine} {m : Machine}
    (hc : (c m).Sound h) (hheap : ∀ m, (last m).heap = m.heap)
    (hscopes : ∀ m : Machine, m.heap.Knows m.scopes → m.heap.Knows (last m).scopes) :
    (ending c last m).Sound h := by
  unfold ending
  split
  · next value m' hdone =>
    rw [hdone] at hc
    exact ⟨hc.1.of_scopes (hheap m') (hscopes m' hc.1.scopes), (hheap m').symm ▸ hc.2⟩
  · next exit m' hleft =>
    rw [hleft] at hc
    exact ⟨hc.1.of_scopes (hheap m') (hscopes m' hc.1.scopes), (hheap m').symm ▸ hc.2⟩
  · trivial

/-- At the end the frame is released, which adds no binding. -/
theorem Sound.inChild {outer : FrameId} {c : FrameId → Eval α}
    (hc : ∀ frame, Sound h (c frame)) : Sound h (inChild outer c) := by
  intro m hm
  have hopened : (m.openFrame outer).Keeps h :=
    hm.of_scopes rfl (Heap.knows_child hm.scopes outer)
  rw [inChild_eq]
  exact ending_sound (hc _ _ hopened) (fun _ => rfl) fun _ ha => Heap.knows_release ha _

/-- The count of calls has no part in what is mentioned. -/
theorem Sound.inCall {limit : Nat} {name : String} {loc : Location} {c : Eval α}
    (hc : Sound h c) : Sound h (inCall limit name loc c) := by
  intro m hm
  unfold Eval.inCall
  split
  · exact ⟨hm.whole.keeps, Heap.knows_failed _ _⟩
  · exact ending_sound (hc _ (hm.of_scopes rfl hm.scopes)) (fun _ => rfl) fun _ ha => ha

/-- Neither has the count of loops, nor what entering one notes. -/
theorem Sound.inLoop {loc : Location} {c : Eval α} (hc : Sound h c) :
    Sound h (inLoop loc c) := by
  intro m hm
  unfold Eval.inLoop Eval.bind
  rw [enterLoop_eq]
  exact ending_sound (hc (m.enterLoop loc) (hm.of_scopes rfl hm.scopes)) (fun _ => rfl)
    fun _ ha => ha

end Eval

end Script
