import Pausepoint.Breakpoint
import Pausepoint.Frame

/-!
# Events of a debug session

Two parties talk through one ordered queue. An interpreter reports what it does by notifications, the
control side answers with commands; an event is either.

* `ThreadId`, `ThreadState`, `Mode`, `Reason` — the vocabulary of threads that run, stop and go on;
* `Notification`, `Command`, `Event` — what is queued;
* `Notification.isPause` — the reports after which a thread waits for a decision;
* `Callback`, `Fault` — what the session tells its listener.
-/

namespace Pausepoint

/-! ### Threads that run and stop -/

/-- The identity of one thread of script execution. -/
structure ThreadId where
  number : Nat
  deriving Repr, DecidableEq, Inhabited

instance : ToString ThreadId :=
  ⟨fun id => "#" ++ toString id.number⟩

/-- What a debugged thread is doing; `notStarted` until it is heard of doing anything, `resumed` while it runs
freely. -/
inductive ThreadState
  | notStarted
  | suspended
  | resumed
  /-- It runs until a step is complete. -/
  | stepping
  | terminated
  deriving Repr, DecidableEq, Inhabited

def ThreadState.word : ThreadState → String
  | .notStarted => "notStarted"
  | .suspended => "suspended"
  | .resumed => "resumed"
  | .stepping => "stepping"
  | .terminated => "terminated"

def ThreadState.description : ThreadState → String
  | .notStarted => "not started"
  | state => state.word

/-- How a stopped thread goes on (`ResumeMode`). -/
inductive Mode
  | resume
  /-- To the next line, wherever it is. -/
  | stepInto
  /-- To the next line at this depth or above it. -/
  | stepOver
  /-- To the next line above this depth. -/
  | stepReturn
  /-- Freely, because a client wished so. -/
  | clientRequest
  deriving Repr, DecidableEq, Inhabited

namespace Mode

/-- Does the thread stop again by itself? -/
def isStep : Mode → Bool
  | .stepInto | .stepOver | .stepReturn => true
  | .resume | .clientRequest => false

/-- What the thread is doing once it goes on (`resulting_state`). -/
def resultingState (m : Mode) : ThreadState :=
  if m.isStep then .stepping else .resumed

def word : Mode → String
  | .resume => "resume"
  | .stepInto => "stepInto"
  | .stepOver => "stepOver"
  | .stepReturn => "stepReturn"
  | .clientRequest => "clientRequest"

end Mode

/-- Why a thread stopped (`SuspendReason`). -/
inductive Reason
  | breakpoint
  | stepEnd
  | clientRequest
  | scriptLoaded
  deriving Repr, DecidableEq, Inhabited

def Reason.word : Reason → String
  | .breakpoint => "breakpoint"
  | .stepEnd => "stepEnd"
  | .clientRequest => "clientRequest"
  | .scriptLoaded => "scriptLoaded"

/-! ### Notifications, commands, events -/

/-- What an interpreter reports (`RuntimeNotification`). -/
inductive Notification
  | engineStarted
  /-- A script is about to run, as the root of a run or inside another script. -/
  | scriptReady (thread : ThreadId) (script : Snapshot) (root : Bool)
  /-- The stack of a thread is now this one, innermost frame first. -/
  | stackFrames (thread : ThreadId) (frames : List Frame)
  | suspended (thread : ThreadId) (frames : List Frame) (reason : Reason)
  | resumed (thread : ThreadId) (mode : Mode)
  | engineTerminated
  deriving Repr, DecidableEq, Inhabited

/-- What the control side asks for (`ControlCommand`). -/
inductive Command
  | resume (thread : ThreadId) (mode : Mode)
  /-- The scripts shall end. -/
  | terminate
  /-- The scripts shall go on without a debugger. -/
  | disconnect
  | setBreakpoint (script : ScriptId) (breakpoint : Breakpoint) (action : BreakpointAction)
  deriving Repr, DecidableEq, Inhabited

/-- What is queued (`DebugEvent`). -/
inductive Event
  | notification (n : Notification)
  | command (c : Command)
  deriving Repr, DecidableEq, Inhabited

namespace Notification

/-- The thread a report is about. -/
def thread? : Notification → Option ThreadId
  | .scriptReady thread _ _ | .stackFrames thread _ | .suspended thread _ _ | .resumed thread _ =>
      some thread
  | .engineStarted | .engineTerminated => none

/-- Does the thread wait for a decision after this report (`is_pause`)? -/
def isPause : Notification → Bool
  | .scriptReady .. | .suspended .. => true
  | _ => false

def kind : Notification → String
  | .engineStarted => "engineStarted"
  | .scriptReady .. => "scriptReady"
  | .stackFrames .. => "stackFrames"
  | .suspended .. => "suspended"
  | .resumed .. => "resumed"
  | .engineTerminated => "engineTerminated"

end Notification

def Command.kind : Command → String
  | .resume .. => "resume"
  | .terminate => "terminate"
  | .disconnect => "disconnect"
  | .setBreakpoint .. => "setBreakpoint"

def Event.kind : Event → String
  | .notification n => n.kind
  | .command c => c.kind

/-! ### What the listener hears -/

/-- Why a session ended abnormally: client code failed, with this message, while an event of this kind was
handled. -/
structure Fault where
  event : String
  message : String
  deriving Repr, DecidableEq, Inhabited

def Fault.description (f : Fault) : String :=
  "handler for `" ++ f.event ++ "` panicked: " ++ f.message

def Fault.document (f : Fault) : Text.Document :=
  .object [("event", .string f.event), ("message", .string f.message)]

/-- What the session tells its listener (`ControlEvent`). -/
inductive Callback
  | sessionCreated
  /-- A thread was heard of for the first time. -/
  | threadCreated (thread : ThreadId)
  | threadStateChanged (thread : ThreadId) (state : ThreadState)
  | stackFramesChanged (thread : ThreadId)
  | sessionTerminated (fault : Option Fault)
  deriving Repr, DecidableEq, Inhabited

namespace Callback

def kind : Callback → String
  | .sessionCreated => "sessionCreated"
  | .threadCreated _ => "threadCreated"
  | .threadStateChanged .. => "threadStateChanged"
  | .stackFramesChanged _ => "stackFramesChanged"
  | .sessionTerminated _ => "sessionTerminated"

/-- The thread a callback is about. -/
def thread? : Callback → Option ThreadId
  | .threadCreated thread | .threadStateChanged thread _ | .stackFramesChanged thread => some thread
  | .sessionCreated | .sessionTerminated _ => none

def document (c : Callback) : Text.Document :=
  let thread := c.thread?.toList.map fun thread => ("thread", .integer thread.number)
  let details := match c with
    | .threadStateChanged _ state => [("state", .string state.word)]
    | .sessionTerminated fault => [("fault", .ofOption Fault.document fault)]
    | _ => []
  .object (("event", .string c.kind) :: thread ++ details)

end Callback

end Pausepoint
