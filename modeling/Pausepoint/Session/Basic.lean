import Pausepoint.Session.Gate
import Pausepoint.Session.Queue
import Pausepoint.Session.Target

/-!
# Debug sessions

A session joins four things: the gate at which reports are admitted, the queue, the target that changes
when events are dispatched, and the breakpoints that the user has set. A fifth, the worker, is how far
the dispatcher is with the event it took last.

Dispatching one event is a list of tasks. Taking the event and changing the target is one step; every
callback, every follow-up command and every hand-over is a step of its own, between which the two sides
may call the session.

* `Task`, `Worker`, `Exit` — what a dispatcher does and why it stops;
* `Session` — the whole state;
* `Session.notify` — the interpreter's entry: admission and queueing as one step.
-/

namespace Pausepoint

/-- Why a dispatcher stopped (`DispatchExit`). -/
inductive Exit
  | engineTerminated
  | disconnected
  | cancelled
  | faulted (fault : Fault)
  deriving Repr, DecidableEq, Inhabited

/-- One step of a dispatcher. The closing steps are those of `close` and of the farewell to the execution side.
-/
inductive Task
  /-- The gate learns that the pause of a thread is over. -/
  | release (thread : ThreadId)
  /-- The gate learns that all pauses are over. -/
  | releaseAll
  /-- The listener is told something. -/
  | callback (c : Callback)
  /-- A command that follows is queued; a queue that refuses it loses it. -/
  | followUp (c : Command)
  /-- The execution side's client is given a command. -/
  | command (c : Command)
  /-- The client passes the command on to the engine. -/
  | forward (c : Command)
  /-- After a fault, the listener is told something; it cannot cause another fault. -/
  | lastCallback (c : Callback)
  | closeQueue
  | closeGate
  /-- The engine learns that the session is closed. -/
  | forwardClosed
  /-- The client learns that the session is closed. -/
  | announceClosed
  | finish (exit : Exit)
  deriving Repr, DecidableEq, Inhabited

/-- How far a dispatcher is. -/
structure Worker where
  /-- The kind of the event it took last. -/
  event : String := ""
  /-- What is left to do before the next event. -/
  agenda : List Task := []
  /-- Has the client learned that the session is closed? -/
  announced : Bool := false
  exit : Option Exit := none
  deriving Repr, DecidableEq, Inhabited

/-- The state of a debug session (`ScriptDebugger`). -/
structure Session where
  gate : Gate := {}
  queue : EventQueue := {}
  target : Target := {}
  breakpoints : BreakpointStore := {}
  /-- Has the control side asked for the end? -/
  terminateRequested : Bool := false
  worker : Worker := {}
  deriving Inhabited

namespace Session

/-- A session with the given settings (`new`), before anything was dispatched. -/
def create (settings : DebuggerSettings) : Session :=
  { queue := { dedupe := settings.dedupeQueuedEvents }
    target := { options := settings.targetOptions } }

def state (s : Session) : SessionState :=
  s.target.state

def isTerminated (s : Session) : Bool :=
  s.target.isTerminated

/-- Submits an event to the queue (`submit`). A refusal changes nothing. -/
def submit (s : Session) (e : Event) : Except Refusal Submitted × Session :=
  match s.queue.submit e with
  | .ok (submitted, queue) => (.ok submitted, { s with queue })
  | .error cause => (.error cause, s)

/-- Reports something (`notify`): the gate admits it, then it is queued. If it is admitted and the queue
refuses it, the gate forgets its pause again. -/
def notify (s : Session) (n : Notification) : Reply × Session :=
  match s.gate.accept n with
  | .error cause => (.error cause, s)
  | .ok gate =>
      match s.queue.submit (.notification n) with
      | .ok (_, queue) => (.ok (), { s with gate, queue })
      | .error cause => (.error cause, { s with gate := gate.revoke n })

/-- Gives up on a pause without a decision (`abandon_pause`); the flag tells whether there was one. -/
def abandonPause (s : Session) (thread : ThreadId) : Bool × Session :=
  (s.gate.isPaused thread, { s with gate := s.gate.release thread })

end Session

end Pausepoint
