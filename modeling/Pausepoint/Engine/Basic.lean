import Pausepoint.Config.Settings
import Pausepoint.Refusal
import Pausepoint.Table

/-!
# The engine side of a session

The engine decides where an interpreter stops, and holds the decisions that come back. It knows three
things per thread or script: the pauses that are waited for, the step a thread is doing, and the
breakpoints of each script.

* `Request` — what an interpreter is about to do;
* `Engine.decide` — whether that is a pause;
* `Engine.apply` — what a command of the control side changes;
* `Engine.settle` — how a waiting call ends, if anything has ended it.
-/

namespace Pausepoint

/-- Why an engine is no longer part of a session: scripts are to end, or to run on without a debugger. -/
inductive Closed
  | terminated
  | detached
  deriving Repr, DecidableEq, Inhabited

/-- A step that a thread is doing, from the depth at which it was asked for. -/
structure StepRequest where
  mode : Mode
  depth : Nat
  deriving Repr, DecidableEq, Inhabited

/-- Is the step complete at a line of this depth (`reached`)? -/
def StepRequest.reached (s : StepRequest) (depth : Nat) : Bool :=
  match s.mode with
  | .stepInto => true
  | .stepOver => decide (depth ≤ s.depth)
  | .stepReturn => decide (depth < s.depth)
  | .resume | .clientRequest => false

/-- What an interpreter is about to do. -/
inductive Request
  /-- To run a script on top of a stack of the given depth. -/
  | load (script : Snapshot) (depth : Nat)
  /-- To run a line on a stack of the given depth, which is given too. -/
  | line (script : Snapshot) (line : Nat) (depth : Nat) (frames : List Frame)
  deriving Repr, DecidableEq, Inhabited

def Request.script : Request → Snapshot
  | .load script _ | .line script _ _ _ => script

/-- A pause of a thread, with what it reports. -/
structure Pause where
  report : Notification
  depth : Nat
  /-- Does a step survive if the thread is simply resumed? It does at loads, so that a step over an
  included script stops after it. -/
  keepStep : Bool
  deriving Repr, DecidableEq, Inhabited

/-- What becomes of a request. -/
inductive Decision
  | refuse (cause : Refusal)
  | pass
  | pause (p : Pause)
  deriving Repr, DecidableEq, Inhabited

/-- What an engine knows. -/
structure Engine where
  showDynamicCode : Bool := false
  /-- For how many milliseconds a pause is waited for, if not for ever. -/
  resumeTimeout : Option Nat := none
  /-- The threads with a pause, and the decision on it once there is one. -/
  slots : Table ThreadId (Option Mode) := .empty
  steps : Table ThreadId StepRequest := .empty
  breakpoints : Table ScriptId (List Breakpoint) := .empty
  closed : Option Closed := none
  deriving Repr, DecidableEq, Inhabited

namespace Engine

def create (settings : DebuggerSettings) : Engine :=
  { showDynamicCode := settings.showDynamicCode, resumeTimeout := settings.resumeTimeout }

/-- Are the lines of a script looked at (`is_tracked`)? Dynamic code only if it is shown. -/
def isTracked (e : Engine) (script : Snapshot) : Bool :=
  !script.isDynamic || e.showDynamicCode

def breakpointsOf (e : Engine) (script : ScriptId) : List Breakpoint :=
  (e.breakpoints.get? script).getD []

/-- Why a thread stops at a line, if it does; a breakpoint comes before a step. -/
def stopReason (e : Engine) (thread : ThreadId) (script : ScriptId) (line depth : Nat) :
    Option Reason :=
  if (e.breakpointsOf script).any fun b => b.hits line then some .breakpoint
  else match e.steps.get? thread with
    | some step => if step.reached depth then some .stepEnd else none
    | none => none

/-- The pause that a request is, if it is one. -/
def pause? (e : Engine) (thread : ThreadId) : Request → Option Pause
  | .load script depth =>
      some { report := .scriptReady thread script (depth == 0), depth, keepStep := true }
  | .line script line depth frames =>
      (e.stopReason thread script.id line depth).map fun reason =>
        { report := .suspended thread frames reason, depth, keepStep := false }

/-- Decides about a request, as `script_ready` and `process_line` do before they pause. -/
def decide (e : Engine) (thread : ThreadId) (r : Request) : Decision :=
  match e.closed with
  | some .terminated => .refuse .terminated
  | some .detached => .pass
  | none =>
      if e.isTracked r.script then
        match e.pause? thread r with
        | some p => .pause p
        | none => .pass
      else .pass

/-- A pause of a thread begins (`pause`), without a decision on it. -/
def openSlot (e : Engine) (thread : ThreadId) : Engine :=
  { e with slots := e.slots.insert thread none }

/-- The pause of a thread is over. -/
def dropSlot (e : Engine) (thread : ThreadId) : Engine :=
  { e with slots := e.slots.erase thread }

/-- The thread is no longer doing a step. -/
def dropStep (e : Engine) (thread : ThreadId) : Engine :=
  { e with steps := e.steps.erase thread }

/-- A decision on a pause is taken up at the end of `pause`: a step begins, or the old one ends unless it is to
survive. -/
def takeUp (e : Engine) (thread : ThreadId) (p : Pause) (mode : Mode) : Engine :=
  let e := e.dropSlot thread
  if mode.isStep then { e with steps := e.steps.insert thread ⟨mode, p.depth⟩ }
  else if p.keepStep then e
  else e.dropStep thread

/-- Ends a session for the engine (`session_closed`), unless it ended otherwise before. -/
def close (e : Engine) : Engine :=
  match e.closed with
  | none => { e with closed := some .terminated }
  | some _ => e

/-- What a command changes (`handle_command`). A decision is for a pause without one and is otherwise ignored.
-/
def apply (e : Engine) : Command → Engine
  | .resume thread mode =>
      match e.slots.get? thread with
      | some none => { e with slots := e.slots.insert thread (some mode) }
      | _ => e
  | .terminate => e.close
  | .disconnect => { e with closed := some .detached, steps := .empty, breakpoints := .empty }
  | .setBreakpoint script b action =>
      { e with breakpoints :=
          e.breakpoints.insert script (b.apply action (e.breakpointsOf script)) }

/-- How a waiting call ends: by a decision, or by the end of the session. -/
inductive Wakening
  | decided (mode : Mode)
  | closed (c : Closed)
  deriving Repr, DecidableEq

/-- What has ended the wait of a thread, if anything; a decision comes before the end of the session. -/
def wakening? (e : Engine) (thread : ThreadId) : Option Wakening :=
  match e.slots.get? thread, e.closed with
  | some (some mode), _ => some (.decided mode)
  | _, some c => some (.closed c)
  | _, none => none

end Engine

/-- What the end of a session means for a call. -/
def Closed.reply : Closed → Reply
  | .terminated => .error .terminated
  | .detached => .ok ()

end Pausepoint
