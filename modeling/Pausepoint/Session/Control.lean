import Pausepoint.Session.Basic

/-!
# The control side

What a client may ask of a session. Commands are queued and the call returns at once; their effect shows
when they are dispatched.

* `resume`, `resumeAll` — let suspended threads go on;
* `terminate`, `disconnect`, `cancel` — three ways to end;
* `addBreakpoint`, `removeBreakpoint` — change what is set, and every script on a stack that it concerns;
* `setBreakpoint` — installs a breakpoint in one script without setting it.
-/

namespace Pausepoint

namespace Session

/-! ### Questions -/

def threadState (s : Session) (id : ThreadId) : Except Refusal ThreadState :=
  match s.target.thread? id with
  | some thread => .ok thread.state
  | none => .error (.unknownThread id)

/-- Why a thread last stopped, if it ever did (`suspend_reason`). -/
def suspendReason (s : Session) (id : ThreadId) : Except Refusal (Option Reason) :=
  match s.target.thread? id with
  | some thread => .ok thread.lastSuspend
  | none => .error (.unknownThread id)

/-- The places of the frames of a thread, innermost first, of which `stack_frames` gives the frames. -/
def stackSlots (s : Session) (id : ThreadId) : Except Refusal (List Nat) :=
  match s.target.thread? id with
  | some thread => .ok thread.stack
  | none => .error (.unknownThread id)

/-- May a thread be resumed (`can_resume`)? The same holds of every way to step. -/
def canResume (s : Session) (id : ThreadId) : Bool :=
  match s.target.thread? id with
  | some thread => thread.isSuspended
  | none => false

/-- The suspended threads, in order of first contact. -/
def suspendedThreads (s : Session) : List ThreadId :=
  (s.target.registry.threads.toList.filter DebugThread.isSuspended).map DebugThread.id

/-- The variables of a published frame of a thread, given the contents of scopes, and the session after
they were read. -/
def readVariables (s : Session) (bindings : ScopeId → Entries) (id : ThreadId) (slot : Nat) :
    List Variable × Session :=
  match s.target.thread? id with
  | none => ([], s)
  | some thread =>
      let (read, thread) := thread.readVariables bindings slot
      (read, { s with target := s.target.setThread thread })

/-! ### Commands -/

def order (s : Session) (c : Command) : Reply × Session :=
  match s.submit (.command c) with
  | (.ok _, s) => (.ok (), s)
  | (.error cause, s) => (.error cause, s)

/-- Queues commands in order, up to the first that is refused. -/
def orderAll (s : Session) : List Command → Reply × Session
  | [] => (.ok (), s)
  | c :: rest =>
      match s.order c with
      | (.ok (), s) => orderAll s rest
      | (.error cause, s) => (.error cause, s)

/-- Lets a suspended thread go on (`resume`). -/
def resume (s : Session) (id : ThreadId) (mode : Mode) : Reply × Session :=
  if s.isTerminated then (.error .terminated, s)
  else match s.target.thread? id with
    | none => (.error (.unknownThread id), s)
    | some thread =>
        if thread.isSuspended then s.order (.resume id mode)
        else (.error (thread.invalid "resume"), s)

/-- What a client that wants a thread to go on is told before anything is queued. -/
def mayResume (s : Session) (id : ThreadId) : Reply :=
  if s.isTerminated then .error .terminated
  else match s.target.thread? id with
    | none => .error (.unknownThread id)
    | some thread => if thread.isSuspended then .ok () else .error (thread.invalid "resume")

/-- `resume` looks first, and queues its command after that. -/
theorem resume_eq (s : Session) (id : ThreadId) (mode : Mode) :
    s.resume id mode = match s.mayResume id with
      | .ok () => s.order (.resume id mode)
      | .error cause => (.error cause, s) := by
  unfold resume mayResume
  split
  · rfl
  · split
    · rfl
    · split <;> rfl

/-- Lets every suspended thread go on (`resume_all`); gives their number. -/
def resumeAll (s : Session) : Except Refusal Nat × Session :=
  if s.isTerminated then (.error .terminated, s)
  else
    let threads := s.suspendedThreads
    match s.orderAll (threads.map fun id => .resume id .clientRequest) with
    | (.ok (), s) => (.ok threads.length, s)
    | (.error cause, s) => (.error cause, s)

/-- Asks the scripts to end (`terminate`). Once asked for, or once the session is over, it does nothing; a
refusal is forgotten, so that it can be asked for again. -/
def terminate (s : Session) : Reply × Session :=
  if s.isTerminated || s.terminateRequested then (.ok (), s)
  else match s.order .terminate with
    | (.ok (), s) => (.ok (), { s with terminateRequested := true })
    | (.error cause, s) => (.error cause, s)

/-- Asks for the end, without a word to the queue; `none` if there is nothing to ask for. -/
def askEnd? (s : Session) : Option Session :=
  if s.isTerminated || s.terminateRequested then none else some { s with terminateRequested := true }

/-- Queues a command. If it is the request to end, a refusal is forgotten. -/
def send (s : Session) (c : Command) : Reply × Session :=
  match s.order c with
  | (.ok (), s) => (.ok (), s)
  | (.error cause, s) =>
      (.error cause, if c = .terminate then { s with terminateRequested := false } else s)

/-- `terminate` asks first, and queues its command after that. -/
theorem terminate_eq (s : Session) :
    s.terminate = match s.askEnd? with
      | none => (.ok (), s)
      | some s => s.send .terminate := by
  unfold terminate askEnd?
  split
  · rfl
  · next hnot =>
      obtain ⟨-, hfirst⟩ : s.isTerminated = false ∧ s.terminateRequested = false := by simpa using hnot
      dsimp only
      unfold send order submit
      dsimp only
      cases s.queue.submit (.command .terminate) with
      | ok next => rfl
      | error cause =>
          obtain ⟨gate, queue, target, breakpoints, terminateRequested, worker⟩ := s
          cases hfirst
          rfl

/-- Detaches (`disconnect`): the scripts run on without a debugger, and the session ends. -/
def disconnect (s : Session) : Reply × Session :=
  if s.isTerminated then (.ok (), s) else s.order .disconnect

/-- The commands by which `forward_breakpoint` brings a change to the scripts on stacks. -/
def forwardCommands (s : Session) (b : Breakpoint) (action : BreakpointAction) : List Command :=
  (s.target.scriptsOnStacks b.resource).map fun script => .setBreakpoint script b action

/-- Sets a breakpoint (`add_breakpoint`): in the store, and if it is new there, in the scripts on stacks. -/
def addBreakpoint (s : Session) (b : Breakpoint) : Reply × Session :=
  match s.breakpoints.add b with
  | (false, _) => (.ok (), s)
  | (true, breakpoints) => orderAll { s with breakpoints } (s.forwardCommands b .add)

/-- Takes a breakpoint away (`remove_breakpoint`). -/
def removeBreakpoint (s : Session) (b : Breakpoint) : Reply × Session :=
  match s.breakpoints.remove b with
  | (false, _) => (.ok (), s)
  | (true, breakpoints) => orderAll { s with breakpoints } (s.forwardCommands b .remove)

/-- Installs a breakpoint in one script, without setting it (`set_breakpoint`). -/
def setBreakpoint (s : Session) (script : ScriptId) (b : Breakpoint) : Reply × Session :=
  s.order (.setBreakpoint script b .add)

/-- Stops the dispatcher after the event it is handling (`cancel`). -/
def cancel (s : Session) : Session :=
  { s with queue := s.queue.cancel }

end Session

end Pausepoint
