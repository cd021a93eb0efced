import Pausepoint.Breakpoint
import Pausepoint.Config.Settings
import Pausepoint.Session.Registry

/-!
# The debugged target

The target is what the session knows of the engine it debugs: whether it runs, and its threads. It
changes only when an event is dispatched. Handling an event changes it at once and completely, and what
else has to be done is handed back: what the listener is told, the commands that follow, and whether the
execution side is to see the command.

* `Target.handleNotification`, `Target.handleCommand` — the two kinds of events;
* `Target.terminate` — the end, once, by whatever cause;
* `Target.modeFor` — how a thread goes on after a script was loaded;
* `Target.scriptsOnStacks` — the scripts that a change of breakpoints concerns.
-/

namespace Pausepoint

/-- How far a session is (`TargetState`). -/
inductive SessionState
  | notStarted
  | running
  | terminated
  deriving Repr, DecidableEq, Inhabited

def SessionState.word : SessionState → String
  | .notStarted => "notStarted"
  | .running => "running"
  | .terminated => "terminated"

/-- Which scripts stop when they are loaded, and which frames are shown. -/
structure TargetOptions where
  /-- Stop on the first line of a root script. -/
  suspendOnStartup : Bool := false
  /-- Stop on the first line of every script. -/
  suspendOnScriptLoad : Bool := false
  /-- Show frames of dynamic code. -/
  showDynamicCode : Bool := false
  deriving Repr, DecidableEq, Inhabited

def DebuggerSettings.targetOptions (s : DebuggerSettings) : TargetOptions :=
  { suspendOnStartup := s.suspendOnStartup
    suspendOnScriptLoad := s.suspendOnScriptLoad
    showDynamicCode := s.showDynamicCode }

/-- What is left to do once the target has handled an event (`Outcome`). -/
structure Effects where
  /-- What the listener is told, in order. -/
  callbacks : List Callback := []
  /-- The commands that are queued after that. -/
  followUps : List Command := []
  /-- Is the execution side to see the command? -/
  deliver : Bool := false
  deriving Repr, DecidableEq, Inhabited

/-- What a session knows of the engine it debugs (`DebugTarget`). -/
structure Target where
  options : TargetOptions := {}
  state : SessionState := .notStarted
  /-- Did the engine ever start? -/
  hasProcess : Bool := false
  registry : Registry := {}
  fault : Option Fault := none
  deriving Inhabited

namespace Target

def isTerminated (t : Target) : Bool :=
  t.state == .terminated

def thread? (t : Target) (id : ThreadId) : Option DebugThread :=
  t.registry.get? id

/-- How a thread goes on after a script was loaded (`resume_mode_for`). -/
def modeFor (t : Target) (root : Bool) : Mode :=
  if t.options.suspendOnScriptLoad || (root && t.options.suspendOnStartup) then .stepInto
  else .resume

/-- The frames that are shown (`visible`). -/
def shown (t : Target) (frames : List Frame) : List Frame :=
  if t.options.showDynamicCode then frames else frames.filter fun frame => !frame.isDynamic

/-- Puts a script into a list of scripts sorted by number, once. -/
def insertScript (id : ScriptId) : List ScriptId → List ScriptId
  | [] => [id]
  | other :: rest =>
      if id.number < other.number then id :: other :: rest
      else if id = other then other :: rest
      else other :: insertScript id rest

/-- The scripts of a resource that are on the stack of any thread, by number (`scripts_on_stacks`). -/
def scriptsOnStacks (t : Target) (resource : String) : List ScriptId :=
  let frames := t.registry.threads.toList.flatMap DebugThread.frames
  let scripts := (frames.filter fun frame => frame.script.resource = some resource).map
    fun frame => frame.script.id
  scripts.foldr insertScript []

/-- The target with another version of a thread. -/
def setThread (t : Target) (thread : DebugThread) : Target :=
  { t with registry := t.registry.update thread.id fun _ => thread }

/-- A thread after a transition of its own, if there is such a thread and it makes the transition. -/
def transition? (t : Target) (id : ThreadId) (f : DebugThread → Except Refusal DebugThread) :
    Option DebugThread :=
  (t.thread? id).bind fun thread => (f thread).toOption

/-- The end of the session (`terminate`). It ends every thread and is told once; later it does nothing. -/
def terminate (t : Target) (fault : Option Fault) : List Callback × Target :=
  if t.isTerminated then ([], t)
  else
    let (ended, registry) := t.registry.terminateAll
    (ended.map (fun id => Callback.threadStateChanged id .terminated) ++
        [.sessionTerminated fault],
      { t with state := .terminated, fault, registry })

/-! ### Notifications -/

/-- The kind of the frame of a script that was loaded. -/
def loadedKind (script : Snapshot) (root : Bool) : FrameKind :=
  if script.isDynamic then .dynamic else if root then .call else .included

/-- The commands that bring the stored breakpoints of its resource to a script. -/
def installCommands (store : BreakpointStore) (script : Snapshot) : List Command :=
  match script.resource with
  | some resource => (store.forResource resource).map fun b => .setBreakpoint script.id b .add
  | none => []

/-- A script was loaded (`script_ready`): its thread is suspended until the session itself resumes it, after
its breakpoints are installed. Hidden code brings no frame and no breakpoints. -/
def scriptReady (t : Target) (store : BreakpointStore) (id : ThreadId) (script : Snapshot)
    (root : Bool) : Effects × Target :=
  let (created, registry) := t.registry.contact id
  let t := { t with registry }
  let contactCallbacks := if created then [Callback.threadCreated id] else []
  match t.transition? id (DebugThread.suspend · .scriptLoaded) with
  | some thread =>
      let changed := [Callback.threadStateChanged id thread.state]
      let resume := [Command.resume id (t.modeFor root)]
      if t.options.showDynamicCode || !script.isDynamic then
        let frame := Frame.capture script 0 (loadedKind script root) none
        match thread.pushFrame frame with
        | .ok thread =>
            ({ callbacks := contactCallbacks ++ [.stackFramesChanged id] ++ changed
               followUps := installCommands store script ++ resume }, t.setThread thread)
        | .error _ =>
            ({ callbacks := contactCallbacks ++ changed
               followUps := installCommands store script ++ resume }, t.setThread thread)
      else
        ({ callbacks := contactCallbacks ++ changed, followUps := resume }, t.setThread thread)
  | none => ({ callbacks := contactCallbacks }, t)

def stackFrames (t : Target) (id : ThreadId) (frames : List Frame) : Effects × Target :=
  match t.transition? id (DebugThread.replaceFrames · (t.shown frames)) with
  | some thread => ({ callbacks := [.stackFramesChanged id] }, t.setThread thread)
  | none => ({}, t)

def suspended (t : Target) (id : ThreadId) (frames : List Frame) (reason : Reason) :
    Effects × Target :=
  match t.transition? id (DebugThread.suspend · reason) with
  | some thread =>
      let changed := [Callback.threadStateChanged id thread.state]
      match thread.replaceFrames (t.shown frames) with
      | .ok thread => ({ callbacks := .stackFramesChanged id :: changed }, t.setThread thread)
      | .error _ => ({ callbacks := changed }, t.setThread thread)
  | none => ({}, t)

/-- A thread goes on; only a change of its state is told. -/
def resumed (t : Target) (id : ThreadId) (mode : Mode) : Effects × Target :=
  match t.thread? id with
  | none => ({}, t)
  | some before =>
      match before.noteResumed mode with
      | .error _ => ({}, t)
      | .ok thread =>
          ({ callbacks := if thread.state = before.state then []
              else [.threadStateChanged id thread.state] }, t.setThread thread)

/-- Handles a report (`handle_notification`). Nothing happens in a session that is over, and only start and end
before the engine has started. -/
def handleNotification (t : Target) (store : BreakpointStore) (n : Notification) : Effects × Target :=
  match t.state, n with
  | .terminated, _ => ({}, t)
  | .notStarted, .engineStarted =>
      ({ callbacks := [.sessionCreated] }, { t with state := .running, hasProcess := true })
  | .running, .engineStarted => ({}, t)
  | _, .engineTerminated =>
      let (callbacks, t) := t.terminate none
      ({ callbacks }, t)
  | .notStarted, _ => ({}, t)
  | .running, .scriptReady id script root => t.scriptReady store id script root
  | .running, .stackFrames id frames => t.stackFrames id frames
  | .running, .suspended id frames reason => t.suspended id frames reason
  | .running, .resumed id mode => t.resumed id mode

/-! ### Commands -/

/-- Handles a command before the execution side sees it (`handle_command`). A thread that is not suspended
cannot be resumed: such a command is a duplicate and is dropped. -/
def handleCommand (t : Target) (c : Command) : Effects × Target :=
  if t.isTerminated then ({}, t)
  else match c with
    | .resume id mode =>
        match t.transition? id (DebugThread.applyResume · mode) with
        | some thread =>
            ({ callbacks := [.threadStateChanged id thread.state], deliver := true },
              t.setThread thread)
        | none => ({}, t)
    | .disconnect =>
        let (callbacks, t) := t.terminate none
        ({ callbacks, deliver := true }, t)
    | .terminate | .setBreakpoint .. => ({ deliver := true }, t)

/-- No command brings further commands. -/
theorem followUps_handleCommand (t : Target) (c : Command) :
    (t.handleCommand c).1.followUps = [] := by
  unfold handleCommand
  split
  · rfl
  · split
    · split <;> rfl
    · rfl
    · rfl
    · rfl

end Target

end Pausepoint
