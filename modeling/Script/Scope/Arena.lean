import Script.Scope.Frame

/-!
# Arenas of frames

Frames live in the numbered slots of an arena, and each but the root has an outer
frame.  When the block of a frame ends, its slot is used again, unless a closure
has pinned the frame.  Pinning a frame pins all frames around it, so a closure
never sees a slot that has gone to somebody else.

A pinned frame whose block has ended stays while a hold on it is owned by
somebody, or while a frame that has not ended lies inside it.  A sweep frees the
others.  It happens by itself when enough such frames have gathered.
-/

namespace Script.Scope

/-- The number of exited frames that brings on the first sweep. -/
def minimumBacklog : Nat := 64

structure Arena (α : Type) where
  frames : Array (Option (Frame α))
  /-- The empty slots; the first is used next. -/
  free : List FrameId
  /-- How many frames have exited and are still here. -/
  exited : Nat
  /-- The number of exited frames that brings on the next sweep. -/
  sweepAt : Nat
  /-- How many owners each hold has. -/
  holds : Array Nat
  deriving Repr

namespace Arena

variable {α : Type}

def root : FrameId := 0

/-- The arena with only the root frame. -/
def new : Arena α where
  frames := #[some { pinned := true }]
  free := []
  exited := 0
  sweepAt := minimumBacklog
  holds := #[]

def frame? (a : Arena α) (id : FrameId) : Option (Frame α) :=
  a.frames.getD id none

def modifyFrame (a : Arena α) (id : FrameId) (f : Frame α → Frame α) : Arena α :=
  { a with frames := a.frames.modify id (Option.map f) }

/-- The number of frames that are here. -/
def live (a : Arena α) : Nat := a.frames.countP Option.isSome

/-- A new frame inside `outer`. -/
def child (a : Arena α) (outer : FrameId) : FrameId × Arena α :=
  let frame := some { outer := some outer }
  match a.free with
  | slot :: free =>
    (slot, { a with frames := a.frames.setIfInBounds slot frame, free })
  | [] => (a.frames.size, { a with frames := a.frames.push frame })

/-! ### Names -/

/-- The first frame from `id` outwards that binds the name, with the binding; at
most `n` frames are visited. -/
def resolveWithin (a : Arena α) (name : String) :
    Nat → FrameId → Option (FrameId × Binding α)
  | 0, _ => none
  | n + 1, id =>
    match a.frame? id with
    | none => none
    | some frame =>
      match find? name frame.bindings with
      | some b => some (id, b)
      | none =>
        match frame.outer with
        | none => none
        | some outer => resolveWithin a name n outer

/-- The frame that a name belongs to, seen from `id`, with the binding.  No chain
of frames is longer than the arena. -/
def resolve? (a : Arena α) (id : FrameId) (name : String) :
    Option (FrameId × Binding α) :=
  resolveWithin a name a.frames.size id

def get? (a : Arena α) (id : FrameId) (name : String) : Option α :=
  (a.resolve? id name).map (·.2.value)

/-- Binds a name in the frame itself. -/
def bind (a : Arena α) (id : FrameId) (b : Binding α) : Arena α :=
  a.modifyFrame id fun frame => { frame with bindings := put b frame.bindings }

def set (a : Arena α) (id : FrameId) (name : String) (value : α) : Arena α :=
  a.bind id { name, value, constant := false }

def setConstant (a : Arena α) (id : FrameId) (name : String) (value : α) :
    Arena α :=
  a.bind id { name, value, constant := true }

/-- Changes the value of a name where it is bound, and says whether it is. -/
def update (a : Arena α) (id : FrameId) (name : String) (value : α) :
    Bool × Arena α :=
  match a.resolve? id name with
  | none => (false, a)
  | some (owner, _) =>
    (true, a.modifyFrame owner fun frame =>
      { frame with bindings := rebind name value frame.bindings })

/-- Whether the name, seen from `id`, is a constant. -/
def isConstant (a : Arena α) (id : FrameId) (name : String) : Bool :=
  (a.resolve? id name).any (·.2.constant)

/-- Whether the frame itself binds the name as a constant. -/
def isLocalConstant (a : Arena α) (id : FrameId) (name : String) : Bool :=
  (a.frame? id).any fun frame => frame.bindings.constants.contains name

/-! ### Holds -/

/-- One more owner of a hold. -/
def claim (a : Arena α) (hold : HoldId) : Arena α :=
  { a with holds := a.holds.modify hold (· + 1) }

/-- One owner of a hold less. -/
def drop (a : Arena α) (hold : HoldId) : Arena α :=
  { a with holds := a.holds.modify hold (· - 1) }

/-- The hold of a frame, with a new owner.  What is no frame has a hold of its
own that keeps nothing. -/
def claimFrame (a : Arena α) (id : FrameId) : HoldId × Arena α :=
  match (a.frame? id).map (·.hold) with
  | some (some hold) => (hold, a.claim hold)
  | some none =>
    let hold := a.holds.size
    let a := { a with holds := a.holds.push 1 }
    (hold, a.modifyFrame id fun frame => { frame with hold := some hold })
  | none => (a.holds.size, { a with holds := a.holds.push 1 })

/-- Pins frames from `id` outwards up to the first one that is pinned already;
at most `n` of them. -/
def pinWithin : Nat → FrameId → Arena α → Arena α
  | 0, _, a => a
  | n + 1, id, a =>
    match a.frame? id with
    | none => a
    | some frame =>
      if frame.pinned then a
      else
        let a := a.modifyFrame id fun frame => { frame with pinned := true }
        match frame.outer with
        | none => a
        | some outer => pinWithin n outer a

/-- Keeps a frame and all frames around it past their end, while the hold or a
copy of it has an owner. -/
def pin (a : Arena α) (id : FrameId) : HoldId × Arena α :=
  let (hold, a) := a.claimFrame id
  (hold, pinWithin a.frames.size id a)

/-! ### The end of a frame -/

def isHeld (a : Arena α) (frame : Frame α) : Bool :=
  frame.hold.any fun hold => 0 < a.holds.getD hold 0

/-- Whether the frame in a slot is needed for its own sake: its block has not
ended, or somebody has a hold on it. -/
def isNeeded (a : Arena α) (slot : FrameId) : Bool :=
  (a.frame? slot).any fun frame => !frame.exited || a.isHeld frame

/-- Marks the frames from `id` outwards, up to one that is marked; the first one,
`start`, does not count as such.  At most `n` frames are visited. -/
def markWithin (a : Arena α) (start : FrameId) :
    Nat → FrameId → Array Bool → Array Bool
  | 0, _, marks => marks
  | n + 1, id, marks =>
    if marks.getD id false && id != start then marks
    else
      let marks := marks.setIfInBounds id true
      match (a.frame? id).bind (·.outer) with
      | none => marks
      | some outer => markWithin a start n outer marks

/-- The slots that a sweep keeps: the root, the needed frames, and all frames
around them. -/
def marks (a : Arena α) : Array Bool :=
  let slots := List.range a.frames.size
  let start := (Array.replicate a.frames.size false).setIfInBounds root true
  (slots.filter a.isNeeded).foldl
    (fun marks slot => markWithin a slot (a.frames.size + 1) slot marks) start

/-- The slots whose frames a sweep frees, in ascending order. -/
def dead (a : Arena α) : List FrameId :=
  let marks := a.marks
  (List.range a.frames.size).filter fun slot =>
    !marks.getD slot false && (a.frame? slot).isSome

/-- Empties a slot. -/
def freeSlot (a : Arena α) (slot : FrameId) : Arena α :=
  { a with frames := a.frames.setIfInBounds slot none, free := slot :: a.free }

/-- Frees every exited frame that neither a hold nor a running frame needs. -/
def sweep (a : Arena α) : Arena α :=
  let dead := a.dead
  let exited := a.exited - dead.length
  { dead.foldl freeSlot a with
    exited, sweepAt := max (exited * 2) minimumBacklog }

/-- Says that the block of a frame has ended.  A frame that is not pinned is
freed, and a pinned one waits for a sweep. -/
def release (a : Arena α) (id : FrameId) : Arena α :=
  if id = root then a
  else
    match a.frame? id with
    | none => a
    | some frame =>
      if !frame.pinned then a.freeSlot id
      else if frame.exited then a
      else
        let a := a.modifyFrame id fun frame => { frame with exited := true }
        let a := { a with exited := a.exited + 1 }
        if a.sweepAt ≤ a.exited then a.sweep else a

end Arena

end Script.Scope
