import Pausepoint.Refusal

/-!
# Debugged threads

What the session knows of one thread: its state, why it last stopped and how it last went on, and its
stack. Frames are published when a stack is reported. A client may keep a published frame for longer than
it stays on the stack, so frames are never forgotten: a thread keeps every frame it ever published, and
its stack is a list of places among them.

The variables of a published frame are read from its scope when they are first asked for and then kept.
A frame is marked dirty when the stack it is on changes; a dirty frame reads its scope anew.

* `PublishedFrame` — a frame with what was read of it;
* `DebugThread.suspend`, `applyResume`, `noteResumed`, `terminate` — the transitions of its state;
* `DebugThread.replaceFrames`, `pushFrame` — another stack;
* `DebugThread.readVariables` — the variables of a published frame.
-/

namespace Pausepoint

/-- A frame that clients can look at (`DebugStackFrame`). -/
structure PublishedFrame where
  frame : Frame
  /-- Must its variables be read anew? -/
  dirty : Bool := true
  /-- Its variables as they were last read. -/
  cache : List Variable := []
  deriving Inhabited

/-- The session's view of a thread. -/
structure DebugThread where
  id : ThreadId
  state : ThreadState := .notStarted
  /-- Every frame it ever published, oldest first. -/
  published : Array PublishedFrame := #[]
  /-- The places of the frames of its stack, innermost first. -/
  stack : List Nat := []
  lastSuspend : Option Reason := none
  lastResume : Option Mode := none
  deriving Inhabited

namespace PublishedFrame

def markDirty (p : PublishedFrame) : PublishedFrame :=
  { p with dirty := true }

/-- The variables, given the contents of scopes, and the frame after they were read (`variables`). -/
def readVariables (p : PublishedFrame) (bindings : ScopeId → Entries) :
    List Variable × PublishedFrame :=
  if p.dirty then
    let read := match p.frame.scope with
      | some scope => visible (bindings scope)
      | none => []
    (read, { p with dirty := false, cache := read })
  else (p.cache, p)

end PublishedFrame

namespace DebugThread

def name (t : DebugThread) : String :=
  s!"Thread {t.id}"

def isSuspended (t : DebugThread) : Bool :=
  t.state == .suspended

/-- The frames of the stack, innermost first. -/
def frames (t : DebugThread) : List Frame :=
  t.stack.filterMap fun slot => t.published[slot]?.map PublishedFrame.frame

/-! ### Transitions -/

def invalid (t : DebugThread) (action : String) : Refusal :=
  .invalidTransition t.id t.state action

/-- The thread reports that it stopped (`suspend`). -/
def suspend (t : DebugThread) (reason : Reason) : Except Refusal DebugThread :=
  match t.state with
  | .notStarted | .resumed | .stepping =>
      .ok { t with state := .suspended, lastSuspend := some reason }
  | .suspended | .terminated => .error (t.invalid "suspend")

/-- A decision lets the thread go on (`apply_resume`); only a suspended thread can be resumed. -/
def applyResume (t : DebugThread) (mode : Mode) : Except Refusal DebugThread :=
  if t.state = .suspended then
    .ok { t with state := mode.resultingState, lastResume := some mode }
  else .error (t.invalid "resume")

/-- The thread reports that it goes on (`note_resumed`). -/
def noteResumed (t : DebugThread) (mode : Mode) : Except Refusal DebugThread :=
  match t.state with
  | .suspended | .resumed | .stepping =>
      .ok { t with state := mode.resultingState, lastResume := some mode }
  | .notStarted | .terminated => .error (t.invalid "run")

/-- The session of the thread is over. -/
def terminate (t : DebugThread) : DebugThread :=
  { t with state := .terminated }

/-! ### Stacks -/

def markStackDirty (t : DebugThread) : DebugThread :=
  let mark := fun (published : Array PublishedFrame) slot =>
    published.modify slot PublishedFrame.markDirty
  { t with published := t.stack.foldl mark t.published }

/-- Publishes frames on top of a stack, innermost first. -/
def publish (t : DebugThread) (frames : List Frame) (below : List Nat) : DebugThread :=
  { t with
    published := t.published ++ (frames.map fun frame => ({ frame } : PublishedFrame)).toArray
    stack := (List.range frames.length).map (t.published.size + ·) ++ below }

/-- The thread has another stack (`replace_frames`). -/
def replaceFrames (t : DebugThread) (frames : List Frame) : Except Refusal DebugThread :=
  if t.state = .terminated then .error (t.invalid "update frames")
  else .ok (t.markStackDirty.publish frames [])

/-- The thread has one frame more (`push_frame`). -/
def pushFrame (t : DebugThread) (frame : Frame) : Except Refusal DebugThread :=
  if t.state = .terminated then .error (t.invalid "update frames")
  else .ok (t.markStackDirty.publish [frame] t.stack)

/-- The variables of the frame at a place, given the contents of scopes, and the thread after they were
read. -/
def readVariables (t : DebugThread) (bindings : ScopeId → Entries) (slot : Nat) :
    List Variable × DebugThread :=
  match t.published[slot]? with
  | none => ([], t)
  | some p =>
      let (read, p) := p.readVariables bindings
      (read, { t with published := t.published.modify slot fun _ => p })

end DebugThread

end Pausepoint
