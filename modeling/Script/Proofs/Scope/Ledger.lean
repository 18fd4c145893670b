import Script.Scope.Arena
import Mathlib.Data.List.GetD

/-!
# Clients of an arena

A client makes calls on an arena.  It names a frame by the order in which the
frames were made, the root being frame 0, and a hold by the order of the pins,
so the same calls can be made on two arenas that number their slots
differently.

A ledger keeps account of what a client has done, without looking at any arena,
and says which calls it may make next.
-/

namespace Script.Scope

variable {α : Type}

inductive Call (α : Type) where
  | child (outer : Nat)
  | pin (frame : Nat)
  | clone (hold : Nat)
  | drop (hold : Nat)
  | release (frame : Nat)
  | sweep
  | set (frame : Nat) (name : String) (value : α)
  | setConstant (frame : Nat) (name : String) (value : α)
  | update (frame : Nat) (name : String) (value : α)
  | get (frame : Nat) (name : String)
  | isConstant (frame : Nat) (name : String)
  | isLocalConstant (frame : Nat) (name : String)

/-- What a client is told. -/
inductive Answer (α : Type) where
  | nothing
  | value (v : Option α)
  | truth (b : Bool)
  deriving DecidableEq, Repr

/-! ### The client's side -/

/-- How an arena gives out slots and takes them back. -/
structure Discipline (α : Type) where
  child : Arena α → FrameId → FrameId × Arena α
  release : Arena α → FrameId → Arena α
  sweep : Arena α → Arena α

/-- The discipline of an arena that uses its slots again. -/
def recycling : Discipline α :=
  { child := Arena.child, release := Arena.release, sweep := Arena.sweep }

/-- A new frame in a slot that was never used. -/
def Arena.fresh (a : Arena α) (outer : FrameId) : FrameId × Arena α :=
  (a.frames.size,
    { a with frames := a.frames.push (some { outer := some outer }) })

/-- The discipline of an arena that keeps every frame. -/
def keeping : Discipline α :=
  { child := Arena.fresh, release := fun a _ => a, sweep := fun a => a }

structure Client (α : Type) where
  arena : Arena α
  /-- The slot that each frame was given. -/
  frames : List FrameId
  /-- The hold that each pin has given. -/
  holds : List HoldId

namespace Client

/-- The client of a new arena, which knows only the root. -/
def start : Client α := { arena := .new, frames := [Arena.root], holds := [] }

def slot (c : Client α) (frame : Nat) : FrameId := c.frames.getD frame Arena.root

def hold (c : Client α) (hold : Nat) : HoldId := c.holds.getD hold 0

def step (d : Discipline α) (c : Client α) : Call α → Answer α × Client α
  | .child outer =>
    let (slot, arena) := d.child c.arena (c.slot outer)
    (.nothing, { c with arena, frames := c.frames ++ [slot] })
  | .pin frame =>
    let (hold, arena) := c.arena.pin (c.slot frame)
    (.nothing, { c with arena, holds := c.holds ++ [hold] })
  | .clone hold => (.nothing, { c with arena := c.arena.claim (c.hold hold) })
  | .drop hold => (.nothing, { c with arena := c.arena.drop (c.hold hold) })
  | .release frame =>
    (.nothing, { c with arena := d.release c.arena (c.slot frame) })
  | .sweep => (.nothing, { c with arena := d.sweep c.arena })
  | .set frame name value =>
    (.nothing, { c with arena := c.arena.set (c.slot frame) name value })
  | .setConstant frame name value =>
    (.nothing, { c with arena := c.arena.setConstant (c.slot frame) name value })
  | .update frame name value =>
    let (found, arena) := c.arena.update (c.slot frame) name value
    (.truth found, { c with arena })
  | .get frame name => (.value (c.arena.get? (c.slot frame) name), c)
  | .isConstant frame name =>
    (.truth (c.arena.isConstant (c.slot frame) name), c)
  | .isLocalConstant frame name =>
    (.truth (c.arena.isLocalConstant (c.slot frame) name), c)

/-- The answers to a sequence of calls, and the client after them. -/
def run (d : Discipline α) : Client α → List (Call α) → List (Answer α) × Client α
  | c, [] => ([], c)
  | c, call :: calls =>
    let (answer, c) := c.step d call
    let (answers, c) := c.run d calls
    (answer :: answers, c)

end Client

/-! ### The account of what has been done -/

structure Ledger where
  /-- The frame around each frame that was made. -/
  outers : List (Option Nat)
  /-- The frames that were made by `child` and have not been released. -/
  running : List Nat
  /-- The frame of each pin, and how many owners its hold has. -/
  holds : List (Nat × Nat)

namespace Ledger

def start : Ledger := { outers := [none], running := [], holds := [] }

def outer? (l : Ledger) (frame : Nat) : Option Nat := l.outers.getD frame none

/-- `Around l inner frame`: `frame` is `inner` or lies around it. -/
inductive Around (l : Ledger) : Nat → Nat → Prop where
  | self (frame : Nat) : Around l frame frame
  | outside {inner outer frame : Nat} (houter : l.outer? inner = some outer)
      (haround : Around l outer frame) : Around l inner frame

/-- What a frame can be needed for itself: it is the root, it is running, or
somebody has a hold on it. -/
def Anchored (l : Ledger) (frame : Nat) : Prop :=
  frame = 0 ∨ frame ∈ l.running ∨
    ∃ owners, (frame, owners) ∈ l.holds ∧ 0 < owners

def Reachable (l : Ledger) (frame : Nat) : Prop :=
  ∃ anchor, l.Anchored anchor ∧ l.Around anchor frame

/-- Somebody owns the hold. -/
def Owned (l : Ledger) (hold : Nat) : Prop :=
  ∃ frame owners, l.holds[hold]? = some (frame, owners) ∧ 0 < owners

/-- The calls a client may make: on frames that are reachable, on holds that it
owns, and a release only of a running frame with no running frame inside. -/
def Permits (l : Ledger) : Call α → Prop
  | .child frame | .pin frame | .set frame _ _ | .setConstant frame _ _
  | .update frame _ _ | .get frame _ | .isConstant frame _
  | .isLocalConstant frame _ => l.Reachable frame
  | .clone hold | .drop hold => l.Owned hold
  | .release frame =>
    frame ∈ l.running ∧
      ∀ inner ∈ l.running, l.Around inner frame → inner = frame
  | .sweep => True

def after (l : Ledger) : Call α → Ledger
  | .child outer =>
    { l with
      outers := l.outers ++ [some outer]
      running := l.outers.length :: l.running }
  | .pin frame => { l with holds := l.holds ++ [(frame, 1)] }
  | .clone hold =>
    { l with holds := l.holds.modify hold fun entry => (entry.1, entry.2 + 1) }
  | .drop hold =>
    { l with holds := l.holds.modify hold fun entry => (entry.1, entry.2 - 1) }
  | .release frame => { l with running := l.running.filter (· ≠ frame) }
  | _ => l

/-- Every call of the sequence is one the client may make when it comes. -/
def PermitsAll (l : Ledger) : List (Call α) → Prop
  | [] => True
  | call :: calls => l.Permits call ∧ (l.after call).PermitsAll calls

/-- The account after a sequence of calls. -/
def afterAll (l : Ledger) : List (Call α) → Ledger
  | [] => l
  | call :: calls => (l.after call).afterAll calls

/-! ### What is reachable after a call -/

variable {l : Ledger}

theorem Around.trans {inner middle frame : Nat} (hleft : l.Around inner middle)
    (hright : l.Around middle frame) : l.Around inner frame := by
  induction hleft with
  | self => exact hright
  | outside houter _ ih => exact Around.outside houter (ih hright)

theorem Reachable.around {inner frame : Nat} (hinner : l.Reachable inner)
    (haround : l.Around inner frame) : l.Reachable frame := by
  obtain ⟨anchor, hanchor, hpath⟩ := hinner
  exact ⟨anchor, hanchor, hpath.trans haround⟩

theorem Anchored.reachable {frame : Nat} (hanchor : l.Anchored frame) :
    l.Reachable frame :=
  ⟨frame, hanchor, Around.self frame⟩

theorem reachable_root (l : Ledger) : l.Reachable 0 :=
  Anchored.reachable (Or.inl rfl)

theorem reachable_of_running {frame : Nat} (hrunning : frame ∈ l.running) :
    l.Reachable frame :=
  Anchored.reachable (Or.inr (Or.inl hrunning))

theorem Reachable.outer {frame outer : Nat} (hframe : l.Reachable frame)
    (houter : l.outer? frame = some outer) : l.Reachable outer :=
  hframe.around (Around.outside houter (Around.self outer))

/-- Frames are made inside frames that are there. -/
structure Sound (l : Ledger) : Prop where
  root_made : 0 < l.outers.length
  outer_lt : ∀ frame outer, l.outer? frame = some outer → outer < frame
  running_made : ∀ frame ∈ l.running, 0 < frame ∧ frame < l.outers.length
  held_made : ∀ hold ∈ l.holds, hold.1 < l.outers.length

theorem sound_start : start.Sound where
  root_made := Nat.one_pos
  outer_lt := by
    intro frame outer houter
    cases frame <;> simp [outer?, start] at houter
  running_made := by simp [start]
  held_made := by simp [start]

theorem Sound.around_le (hsound : l.Sound) {inner frame : Nat}
    (haround : l.Around inner frame) : frame ≤ inner := by
  induction haround with
  | self => exact Nat.le_refl _
  | outside houter _ ih =>
    exact Nat.le_of_lt (Nat.lt_of_le_of_lt ih (hsound.outer_lt _ _ houter))

theorem Sound.reachable_made (hsound : l.Sound) {frame : Nat}
    (hframe : l.Reachable frame) : frame < l.outers.length := by
  obtain ⟨anchor, hanchor, haround⟩ := hframe
  refine Nat.lt_of_le_of_lt (hsound.around_le haround) ?_
  rcases hanchor with rfl | hrunning | ⟨owners, hheld, -⟩
  · exact hsound.root_made
  · exact (hsound.running_made anchor hrunning).2
  · exact hsound.held_made _ hheld

/-- The frames around a frame do not depend on running frames and holds. -/
theorem Around.of_outers_eq {m : Ledger} {inner frame : Nat}
    (haround : m.Around inner frame) (houters : m.outers = l.outers) :
    l.Around inner frame := by
  induction haround with
  | self => exact Around.self _
  | outside houter _ ih =>
    refine Around.outside ?_ ih
    rwa [outer?, ← houters]

theorem Reachable.of_outers_eq {m : Ledger} {frame : Nat}
    (hframe : m.Reachable frame) (houters : m.outers = l.outers)
    (hanchors : ∀ anchor, m.Anchored anchor → l.Reachable anchor) :
    l.Reachable frame := by
  obtain ⟨anchor, hanchor, haround⟩ := hframe
  exact (hanchors anchor hanchor).around (haround.of_outers_eq houters)

/-! ### A new frame -/

section Child

variable {outer : Nat}

theorem outer?_child (frame : Nat) :
    (l.after (.child outer : Call α)).outer? frame =
      if frame = l.outers.length then some outer else l.outer? frame := by
  simp only [outer?, after]
  rcases Nat.lt_trichotomy frame l.outers.length with hlt | heq | hgt
  · rw [List.getD_append _ _ _ _ hlt, if_neg (Nat.ne_of_lt hlt)]
  · subst heq
    simp [List.getD]
  · rw [if_neg (Nat.ne_of_gt hgt), List.getD_eq_default, List.getD_eq_default]
    · exact Nat.le_of_lt hgt
    · simpa using Nat.succ_le_of_lt hgt

theorem Sound.around_child (hsound : l.Sound) {inner frame : Nat}
    (hinner : inner < l.outers.length)
    (haround : (l.after (.child outer : Call α)).Around inner frame) :
    l.Around inner frame := by
  induction haround with
  | self => exact Around.self _
  | outside houter _ ih =>
    rw [outer?_child, if_neg (Nat.ne_of_lt hinner)] at houter
    refine Around.outside houter (ih ?_)
    exact Nat.lt_trans (hsound.outer_lt _ _ houter) hinner

theorem Sound.reachable_child (hsound : l.Sound) (houter : l.Reachable outer)
    {frame : Nat}
    (hframe : (l.after (.child outer : Call α)).Reachable frame) :
    frame = l.outers.length ∨ l.Reachable frame := by
  obtain ⟨anchor, hanchor, haround⟩ := hframe
  have hold : l.Anchored anchor → l.Reachable frame := by
    intro hanchor
    have hreach := Anchored.reachable hanchor
    exact hreach.around
      (hsound.around_child (hsound.reachable_made hreach) haround)
  rcases hanchor with hroot | hrunning | hheld
  · exact Or.inr (hold (Or.inl hroot))
  · rcases List.mem_cons.mp hrunning with rfl | hrunning
    · cases haround with
      | self => exact Or.inl rfl
      | outside hnew haround =>
        rw [outer?_child, if_pos rfl, Option.some.injEq] at hnew
        subst hnew
        exact Or.inr (houter.around
          (hsound.around_child (hsound.reachable_made houter) haround))
    · exact Or.inr (hold (Or.inr (Or.inl hrunning)))
  · exact Or.inr (hold (Or.inr (Or.inr hheld)))

theorem Sound.after_child (hsound : l.Sound) (houter : l.Reachable outer) :
    (l.after (.child outer : Call α)).Sound where
  root_made := by simp [after]
  outer_lt := by
    intro frame around haround
    rw [outer?_child] at haround
    split at haround
    · next heq =>
      rw [Option.some.injEq] at haround
      subst haround heq
      exact hsound.reachable_made houter
    · exact hsound.outer_lt frame around haround
  running_made := by
    intro frame hframe
    simp only [after, List.length_append, List.length_singleton]
    rcases List.mem_cons.mp hframe with rfl | hframe
    · exact ⟨hsound.root_made, Nat.lt_succ_self _⟩
    · have hmade := hsound.running_made frame hframe
      exact ⟨hmade.1, Nat.lt_succ_of_lt hmade.2⟩
  held_made := by
    intro hold hhold
    simp only [after, List.length_append, List.length_singleton]
    exact Nat.lt_succ_of_lt (hsound.held_made hold hhold)

end Child

/-! ### The other calls -/

theorem Sound.after_pin (hsound : l.Sound) {frame : Nat}
    (hframe : l.Reachable frame) : (l.after (.pin frame : Call α)).Sound where
  root_made := hsound.root_made
  outer_lt := hsound.outer_lt
  running_made := hsound.running_made
  held_made := by
    intro hold hhold
    rcases List.mem_append.mp hhold with hhold | hnew
    · exact hsound.held_made hold hhold
    · rw [List.mem_singleton] at hnew
      subst hnew
      exact hsound.reachable_made hframe

theorem reachable_pin {pinned frame : Nat} (hpinned : l.Reachable pinned)
    (hframe : (l.after (.pin pinned : Call α)).Reachable frame) :
    l.Reachable frame := by
  refine hframe.of_outers_eq rfl ?_
  rintro anchor (hroot | hrunning | ⟨owners, hheld, howners⟩)
  · exact Anchored.reachable (Or.inl hroot)
  · exact reachable_of_running hrunning
  · rcases List.mem_append.mp hheld with hheld | hnew
    · exact Anchored.reachable (Or.inr (Or.inr ⟨owners, hheld, howners⟩))
    · rw [List.mem_singleton, Prod.mk.injEq] at hnew
      rwa [hnew.1]

theorem mem_modify_holds {holds : List (Nat × Nat)} {hold : Nat}
    {count : Nat → Nat} {entry : Nat × Nat}
    (hentry : entry ∈ holds.modify hold fun entry => (entry.1, count entry.2)) :
    entry ∈ holds ∨
      ∃ n, holds[hold]? = some (entry.1, n) ∧ entry.2 = count n := by
  obtain ⟨index, hindex⟩ := List.mem_iff_getElem?.mp hentry
  rw [List.getElem?_modify] at hindex
  cases hold? : holds[index]? with
  | none => simp [hold?] at hindex
  | some old =>
    by_cases heq : hold = index
    · subst heq
      simp only [hold?, if_true, Option.map_eq_map, Option.map_some,
        Option.some.injEq] at hindex
      subst hindex
      exact Or.inr ⟨old.2, hold?, rfl⟩
    · simp only [hold?, if_neg heq, Option.map_eq_map, Option.map_some,
        Option.some.injEq] at hindex
      subst hindex
      exact Or.inl (List.mem_of_getElem? hold?)

/-- Changing how many owners a hold has keeps the ledger sound, and makes
nothing reachable if the hold was owned. -/
theorem Sound.modify_holds (hsound : l.Sound) {hold : Nat} (count : Nat → Nat) :
    Sound { l with
      holds := l.holds.modify hold fun entry => (entry.1, count entry.2) } where
  root_made := hsound.root_made
  outer_lt := hsound.outer_lt
  running_made := hsound.running_made
  held_made := by
    intro entry hentry
    rcases mem_modify_holds hentry with hheld | ⟨n, hheld, -⟩
    · exact hsound.held_made entry hheld
    · exact hsound.held_made (entry.1, n) (List.mem_of_getElem? hheld)

theorem reachable_modify_holds {hold frame : Nat} (count : Nat → Nat)
    (howned : l.Owned hold)
    (hframe : Reachable { l with
      holds := l.holds.modify hold fun entry => (entry.1, count entry.2) } frame) :
    l.Reachable frame := by
  refine hframe.of_outers_eq rfl ?_
  rintro anchor (hroot | hrunning | ⟨owners, hheld, howners⟩)
  · exact Anchored.reachable (Or.inl hroot)
  · exact reachable_of_running hrunning
  · apply Anchored.reachable
    refine Or.inr (Or.inr ?_)
    rcases mem_modify_holds hheld with hheld | ⟨n, hheld, -⟩
    · exact ⟨owners, hheld, howners⟩
    · obtain ⟨other, m, hother, hm⟩ := howned
      rw [hheld, Option.some.injEq, Prod.mk.injEq] at hother
      exact ⟨n, List.mem_of_getElem? hheld, hother.2 ▸ hm⟩

theorem Sound.after_release (hsound : l.Sound) (frame : Nat) :
    (l.after (.release frame : Call α)).Sound where
  root_made := hsound.root_made
  outer_lt := hsound.outer_lt
  running_made := fun other hother =>
    hsound.running_made other (List.mem_filter.mp hother).1
  held_made := hsound.held_made

theorem reachable_release {released frame : Nat}
    (hframe : (l.after (.release released : Call α)).Reachable frame) :
    l.Reachable frame := by
  refine hframe.of_outers_eq rfl ?_
  rintro anchor (hroot | hrunning | hheld)
  · exact Anchored.reachable (Or.inl hroot)
  · exact reachable_of_running (List.mem_filter.mp hrunning).1
  · exact Anchored.reachable (Or.inr (Or.inr hheld))

end Ledger

end Script.Scope
