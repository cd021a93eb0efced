import Pausepoint.Proofs.Session.Registry
import Pausepoint.Session.Target

/-!
# Pausepoint.Proofs.Session.Target

What each report and each command does to the threads of a target.

* `Target.stateOf` — the state of a thread, `none` for a thread that was never heard of;
* `Notification.Finds` — the states of its thread in which a report makes sense;
* `Notification.leads` — the state a report leaves its thread in;
* `Target.Moves` — one thread became another, and nothing else of the target changed;
* `scriptReady_frame` and following — how far the session is and why it ended are no matter of threads.

There is one law per kind of report (`moves_of_scriptReady` and following) and one for
resume commands (`moves_of_resume`). Callers cite these and never open the handlers.
-/

namespace Pausepoint

/-! ### Threads by themselves -/

/-- A thread that runs, freely or in a step. -/
def ThreadState.Runs (s : ThreadState) : Prop :=
  s = .resumed ∨ s = .stepping

theorem Mode.runs_resultingState (m : Mode) : m.resultingState.Runs := by
  cases m <;> simp [Mode.resultingState, Mode.isStep, ThreadState.Runs]

namespace DebugThread

theorem suspend_of_runs {t : DebugThread} (h : t.state.Runs) (reason : Reason) :
    t.suspend reason = .ok { t with state := .suspended, lastSuspend := some reason } := by
  rcases h with h | h <;> simp [suspend, h]

theorem noteResumed_of_runs {t : DebugThread} (h : t.state.Runs) (mode : Mode) :
    t.noteResumed mode = .ok { t with state := mode.resultingState, lastResume := some mode } := by
  rcases h with h | h <;> simp [noteResumed, h]

/-- Another stack leaves everything but the stack as it is. -/
theorem replaceFrames_of_ne {t : DebugThread} (h : t.state ≠ .terminated) (frames : List Frame) :
    ∃ t', t.replaceFrames frames = .ok t' ∧ t'.id = t.id ∧ t'.state = t.state ∧
      t'.lastSuspend = t.lastSuspend := by
  refine ⟨_, if_neg h, ?_, ?_, ?_⟩ <;> rfl

/-- One more frame leaves everything but the stack as it is. -/
theorem pushFrame_of_ne {t : DebugThread} (h : t.state ≠ .terminated) (frame : Frame) :
    ∃ t', t.pushFrame frame = .ok t' ∧ t'.id = t.id ∧ t'.state = t.state ∧
      t'.lastSuspend = t.lastSuspend := by
  refine ⟨_, if_neg h, ?_, ?_, ?_⟩ <;> rfl

end DebugThread

/-! ### What reports ask for -/

namespace Notification

/-- The states of its thread in which a report makes sense: the announcement of a script
also opens a thread, and everything else is said of a thread that runs. -/
def Finds : Notification → Option ThreadState → Prop
  | .scriptReady .., state => ∀ s ∈ state, s.Runs
  | .stackFrames .., state | .suspended .., state | .resumed .., state => ∃ s ∈ state, s.Runs
  | .engineStarted, _ | .engineTerminated, _ => True

/-- The state in which a report leaves its thread. -/
def leads : Notification → Option ThreadState → Option ThreadState
  | .scriptReady .., _ | .suspended .., _ => some .suspended
  | .resumed _ mode, _ => some mode.resultingState
  | .stackFrames .., state | .engineStarted, state | .engineTerminated, state => state

/-- Why its thread stops, if a report is a pause. -/
def reason? : Notification → Option Reason
  | .scriptReady .. => some .scriptLoaded
  | .suspended _ _ reason => some reason
  | .stackFrames .. | .resumed .. | .engineStarted | .engineTerminated => none

/-- A report about no thread that does not end the engine starts it. -/
theorem eq_engineStarted {n : Notification} (hid : n.thread? = none) (hend : n ≠ .engineTerminated) :
    n = .engineStarted := by
  cases n with
  | engineStarted => rfl
  | engineTerminated => exact absurd rfl hend
  | scriptReady | stackFrames | suspended | resumed => cases hid

end Notification

namespace Target

/-- The state of a thread; a thread that was never heard of has none. -/
def stateOf (t : Target) (id : ThreadId) : Option ThreadState :=
  (t.thread? id).map DebugThread.state

/-- One thread of a target became another, and nothing else changed. -/
structure Moves (t t' : Target) (id : ThreadId) (next : DebugThread) : Prop where
  indexed : t'.registry.Indexed
  state : t'.state = t.state
  options : t'.options = t.options
  self : t'.thread? id = some next
  others : ∀ other, other ≠ id → t'.thread? other = t.thread? other

namespace Moves

variable {t t' : Target} {id : ThreadId} {next : DebugThread}

theorem stateOf_self (h : t.Moves t' id next) : t'.stateOf id = some next.state := by
  simp [stateOf, h.self]

theorem stateOf_of_ne (h : t.Moves t' id next) {other : ThreadId} (hne : other ≠ id) :
    t'.stateOf other = t.stateOf other := by
  simp [stateOf, h.others other hne]

end Moves

/-- Storing a new version of a known thread. -/
theorem moves_setThread {t : Target} (hr : t.registry.Indexed) (next : DebugThread)
    {before : DebugThread}
    (h : t.thread? next.id = some before) : t.Moves (t.setThread next) next.id next where
  indexed := Registry.indexed_update hr _ fun _ _ => rfl
  state := rfl
  options := rfl
  self := by
    have hget := Registry.get?_update hr next.id next.id fun _ => next
    rw [if_pos rfl] at hget
    rw [thread?, setThread, hget, show t.registry.get? next.id = some before from h]
    rfl
  others other hne := by
    have hget := Registry.get?_update hr next.id other fun _ => next
    rwa [if_neg hne] at hget

/-- The same after the first contact with a thread. -/
theorem moves_setThread_contact {t : Target} (hr : t.registry.Indexed) (next : DebugThread) :
    t.Moves ({ t with registry := (t.registry.contact next.id).2 }.setThread next) next.id next := by
  have hr' := Registry.indexed_contact hr next.id
  have hget := Registry.get?_contact hr next.id
  have hself := hget next.id
  rw [if_pos rfl] at hself
  have hm := moves_setThread (t := { t with registry := (t.registry.contact next.id).2 }) hr' next hself
  refine ⟨hm.indexed, rfl, rfl, hm.self, fun other hne => ?_⟩
  have hother := hget other
  rw [if_neg hne] at hother
  exact (hm.others other hne).trans hother

theorem id_of_thread? {t : Target} (hr : t.registry.Indexed) {id : ThreadId} {thread : DebugThread}
    (h : t.thread? id = some thread) : thread.id = id :=
  Registry.id_of_get? hr h

theorem exists_thread_of_stateOf {t : Target} {id : ThreadId} {s : ThreadState}
    (h : t.stateOf id = some s) : ∃ thread, t.thread? id = some thread ∧ thread.state = s :=
  Option.map_eq_some_iff.mp h

/-! ### Reports -/

/-- The thread to be suspended when a script is announced: the one that is there, or a new one. -/
theorem suspend_after_contact {t : Target} (hr : t.registry.Indexed) {id : ThreadId}
    (h : ∀ s ∈ t.stateOf id, s.Runs) :
    ∃ next : DebugThread,
      transition? { t with registry := (t.registry.contact id).2 } id
        (DebugThread.suspend · .scriptLoaded) = some next ∧
      next.id = id ∧ next.state = .suspended ∧ next.lastSuspend = some .scriptLoaded := by
  have hget := Registry.get?_contact hr id id
  rw [if_pos rfl] at hget
  unfold transition? thread?
  rw [hget]
  cases hthread : t.registry.get? id with
  | none =>
      exact ⟨_, rfl, rfl, rfl, rfl⟩
  | some thread =>
      have hruns : thread.state.Runs := h _ (by simp [stateOf, thread?, hthread])
      have hid : thread.id = id := Registry.id_of_get? hr hthread
      refine ⟨{ thread with state := .suspended, lastSuspend := some .scriptLoaded }, ?_, hid,
        rfl, rfl⟩
      simp [DebugThread.suspend_of_runs hruns, Except.toOption]

/-- **Announcing a script.** The thread is suspended for the load, and what follows brings the
breakpoints of a script that is looked at, and then lets the thread go on by itself. -/
theorem moves_of_scriptReady {t : Target} (hr : t.registry.Indexed) (hrun : t.state = .running)
    (store : BreakpointStore) {id : ThreadId} (script : Snapshot) (root : Bool)
    (h : (Notification.scriptReady id script root).Finds (t.stateOf id)) :
    ∃ next : DebugThread,
      t.Moves (t.handleNotification store (.scriptReady id script root)).2 id next ∧
      next.state = .suspended ∧ next.lastSuspend = some .scriptLoaded ∧
      (t.handleNotification store (.scriptReady id script root)).1.followUps =
        (if t.options.showDynamicCode || !script.isDynamic then installCommands store script else [])
          ++ [.resume id (t.modeFor root)] := by
  obtain ⟨next, htrans, rfl, hstate, hlast⟩ := suspend_after_contact hr h
  rw [show t.handleNotification store (.scriptReady next.id script root) =
    t.scriptReady store next.id script root by simp only [handleNotification, hrun]]
  simp only [scriptReady, htrans]
  by_cases hshown : (t.options.showDynamicCode || !script.isDynamic) = true
  · have hne : next.state ≠ .terminated := by rw [hstate]; decide
    obtain ⟨pushed, hpush, hid, hstate', hlast'⟩ := DebugThread.pushFrame_of_ne hne
      (Frame.capture script 0 (loadedKind script root) none)
    have hm := moves_setThread_contact hr pushed
    rw [hid] at hm
    refine ⟨pushed, ?_, hstate'.trans hstate, hlast'.trans hlast, ?_⟩
    · simpa only [if_pos hshown, hpush] using hm
    · simp only [if_pos hshown, hpush]
      rfl
  · refine ⟨next, ?_, hstate, hlast, ?_⟩
    · simpa only [if_neg hshown] using moves_setThread_contact hr next
    · simp only [if_neg hshown, List.nil_append]
      rfl

/-- **A stop.** -/
theorem moves_of_suspended {t : Target} (hr : t.registry.Indexed) (hrun : t.state = .running)
    (store : BreakpointStore) {id : ThreadId} (frames : List Frame) (reason : Reason)
    (h : (Notification.suspended id frames reason).Finds (t.stateOf id)) :
    ∃ next : DebugThread,
      t.Moves (t.handleNotification store (.suspended id frames reason)).2 id next ∧
      next.state = .suspended ∧ next.lastSuspend = some reason ∧
      (t.handleNotification store (.suspended id frames reason)).1.followUps = [] := by
  obtain ⟨s, hs, hruns⟩ := h
  obtain ⟨thread, hthread, rfl⟩ := exists_thread_of_stateOf hs
  obtain rfl := id_of_thread? hr hthread
  obtain ⟨next, hframes, hid, hstate, hlast⟩ := DebugThread.replaceFrames_of_ne
    (t := { thread with state := .suspended, lastSuspend := some reason }) (by simp) (t.shown frames)
  have htrans : t.transition? thread.id (DebugThread.suspend · reason) =
      some { thread with state := .suspended, lastSuspend := some reason } := by
    simp [transition?, hthread, DebugThread.suspend_of_runs hruns, Except.toOption]
  refine ⟨next, ?_, hstate, hlast, ?_⟩
  · simp only [handleNotification, hrun, suspended, htrans, hframes]
    have hm := moves_setThread hr next ((congrArg t.thread? hid).trans hthread)
    rwa [hid] at hm
  · simp only [handleNotification, hrun, suspended, htrans, hframes]

/-- **Another stack.** -/
theorem moves_of_stackFrames {t : Target} (hr : t.registry.Indexed) (hrun : t.state = .running)
    (store : BreakpointStore) {id : ThreadId} (frames : List Frame)
    (h : (Notification.stackFrames id frames).Finds (t.stateOf id)) :
    ∃ next : DebugThread,
      t.Moves (t.handleNotification store (.stackFrames id frames)).2 id next ∧
      some next.state = t.stateOf id ∧
      (t.handleNotification store (.stackFrames id frames)).1.followUps = [] := by
  obtain ⟨s, hs, hruns⟩ := h
  obtain ⟨thread, hthread, rfl⟩ := exists_thread_of_stateOf hs
  obtain rfl := id_of_thread? hr hthread
  have hne : thread.state ≠ .terminated := by rcases hruns with h | h <;> simp [h]
  obtain ⟨next, hframes, hid, hstate, -⟩ := DebugThread.replaceFrames_of_ne hne (t.shown frames)
  have htrans : t.transition? thread.id (DebugThread.replaceFrames · (t.shown frames)) = some next := by
    simp [transition?, hthread, hframes, Except.toOption]
  refine ⟨next, ?_, ?_, ?_⟩
  · simp only [handleNotification, hrun, stackFrames, htrans]
    have hm := moves_setThread hr next ((congrArg t.thread? hid).trans hthread)
    rwa [hid] at hm
  · rw [hs, hstate]
  · simp only [handleNotification, hrun, stackFrames, htrans]

/-- **Going on.** -/
theorem moves_of_resumed {t : Target} (hr : t.registry.Indexed) (hrun : t.state = .running)
    (store : BreakpointStore) {id : ThreadId} (mode : Mode)
    (h : (Notification.resumed id mode).Finds (t.stateOf id)) :
    ∃ next : DebugThread,
      t.Moves (t.handleNotification store (.resumed id mode)).2 id next ∧
      next.state = mode.resultingState ∧
      (t.handleNotification store (.resumed id mode)).1.followUps = [] := by
  obtain ⟨s, hs, hruns⟩ := h
  obtain ⟨thread, hthread, rfl⟩ := exists_thread_of_stateOf hs
  obtain rfl := id_of_thread? hr hthread
  refine ⟨{ thread with state := mode.resultingState, lastResume := some mode }, ?_, rfl, ?_⟩
  · simp only [handleNotification, hrun, resumed, hthread, DebugThread.noteResumed_of_runs hruns]
    exact moves_setThread hr { thread with state := mode.resultingState, lastResume := some mode }
      hthread
  · simp only [handleNotification, hrun, resumed, hthread, DebugThread.noteResumed_of_runs hruns]

/-- **Every report that is made at the right time** leads its thread where it says, and leaves all
other threads alone. -/
theorem moves_of_finds {t : Target} (hr : t.registry.Indexed) (hrun : t.state = .running)
    (store : BreakpointStore) {n : Notification} {id : ThreadId} (hid : n.thread? = some id)
    (h : n.Finds (t.stateOf id)) :
    ∃ next : DebugThread, t.Moves (t.handleNotification store n).2 id next ∧
      some next.state = n.leads (t.stateOf id) ∧
      (n.isPause = true → next.lastSuspend = n.reason?) := by
  cases n with
  | engineStarted => cases hid
  | engineTerminated => cases hid
  | scriptReady thread script root =>
      obtain rfl := Option.some.inj hid
      obtain ⟨next, hm, hstate, hlast, -⟩ := moves_of_scriptReady hr hrun store script root h
      exact ⟨next, hm, congrArg some hstate, fun _ => hlast⟩
  | stackFrames thread frames =>
      obtain rfl := Option.some.inj hid
      obtain ⟨next, hm, hstate, -⟩ := moves_of_stackFrames hr hrun store frames h
      exact ⟨next, hm, hstate, nofun⟩
  | suspended thread frames reason =>
      obtain rfl := Option.some.inj hid
      obtain ⟨next, hm, hstate, hlast, -⟩ := moves_of_suspended hr hrun store frames reason h
      exact ⟨next, hm, congrArg some hstate, fun _ => hlast⟩
  | resumed thread mode =>
      obtain rfl := Option.some.inj hid
      obtain ⟨next, hm, hstate, -⟩ := moves_of_resumed hr hrun store mode h
      exact ⟨next, hm, congrArg some hstate, nofun⟩

/-! ### Commands -/

/-- **A decision on a thread that waits for one** is delivered. -/
theorem moves_of_resume {t : Target} (hr : t.registry.Indexed) (hrun : t.isTerminated = false)
    {id : ThreadId} (mode : Mode) (h : t.stateOf id = some .suspended) :
    ∃ next : DebugThread, t.Moves (t.handleCommand (.resume id mode)).2 id next ∧
      next.state = mode.resultingState ∧
      (t.handleCommand (.resume id mode)).1 =
        { callbacks := [.threadStateChanged id mode.resultingState], deliver := true } := by
  obtain ⟨thread, hthread, hstate⟩ := exists_thread_of_stateOf h
  obtain rfl := id_of_thread? hr hthread
  have htrans : t.transition? thread.id (DebugThread.applyResume · mode) =
      some { thread with state := mode.resultingState, lastResume := some mode } := by
    simp [transition?, hthread, DebugThread.applyResume, hstate, Except.toOption]
  simp only [handleCommand, hrun, Bool.false_eq_true, if_false, htrans]
  exact ⟨_, moves_setThread hr { thread with state := mode.resultingState, lastResume := some mode }
    hthread, rfl, trivial⟩

/-- A decision on any other thread is dropped. -/
theorem handleCommand_resume_of_ne {t : Target} {id : ThreadId} (mode : Mode)
    (h : t.stateOf id ≠ some .suspended) : t.handleCommand (.resume id mode) = ({}, t) := by
  have htrans : t.transition? id (DebugThread.applyResume · mode) = none := by
    unfold transition?
    cases hthread : t.thread? id with
    | none => rfl
    | some thread =>
        have hne : thread.state ≠ .suspended := by
          rintro hs
          exact h (by simp [stateOf, hthread, hs])
        simp [DebugThread.applyResume, hne, Except.toOption]
  simp only [handleCommand, htrans]
  split <;> rfl

/-! ### How far the session is -/

theorem handleNotification_of_terminated {t : Target} (h : t.state = .terminated)
    (store : BreakpointStore) (n : Notification) : (t.handleNotification store n).2 = t := by
  simp [handleNotification, h]

theorem handleCommand_of_terminated {t : Target} (h : t.state = .terminated) (c : Command) :
    (t.handleCommand c).2 = t := by
  simp [handleCommand, isTerminated, h]

/-- **The handlers of reports about a thread** change no more of a target than its threads. -/
theorem scriptReady_frame (t : Target) (store : BreakpointStore) (id : ThreadId) (script : Snapshot)
    (root : Bool) : ∃ registry, (t.scriptReady store id script root).2 = { t with registry } := by
  unfold scriptReady
  dsimp only
  split
  · split
    · split <;> exact ⟨_, rfl⟩
    · exact ⟨_, rfl⟩
  · exact ⟨_, rfl⟩

theorem stackFrames_frame (t : Target) (id : ThreadId) (frames : List Frame) :
    ∃ registry, (t.stackFrames id frames).2 = { t with registry } := by
  unfold stackFrames
  split <;> exact ⟨_, rfl⟩

theorem suspended_frame (t : Target) (id : ThreadId) (frames : List Frame) (reason : Reason) :
    ∃ registry, (t.suspended id frames reason).2 = { t with registry } := by
  unfold suspended
  split
  · dsimp only
    split <;> exact ⟨_, rfl⟩
  · exact ⟨_, rfl⟩

theorem resumed_frame (t : Target) (id : ThreadId) (mode : Mode) :
    ∃ registry, (t.resumed id mode).2 = { t with registry } := by
  unfold resumed
  split
  · exact ⟨_, rfl⟩
  · split <;> exact ⟨_, rfl⟩

theorem state_scriptReady (t : Target) (store : BreakpointStore) (id : ThreadId) (script : Snapshot)
    (root : Bool) : (t.scriptReady store id script root).2.state = t.state := by
  obtain ⟨_, hframe⟩ := t.scriptReady_frame store id script root
  rw [hframe]

theorem state_stackFrames (t : Target) (id : ThreadId) (frames : List Frame) :
    (t.stackFrames id frames).2.state = t.state := by
  obtain ⟨_, hframe⟩ := t.stackFrames_frame id frames
  rw [hframe]

theorem state_suspended (t : Target) (id : ThreadId) (frames : List Frame) (reason : Reason) :
    (t.suspended id frames reason).2.state = t.state := by
  obtain ⟨_, hframe⟩ := t.suspended_frame id frames reason
  rw [hframe]

theorem state_resumed (t : Target) (id : ThreadId) (mode : Mode) :
    (t.resumed id mode).2.state = t.state := by
  obtain ⟨_, hframe⟩ := t.resumed_frame id mode
  rw [hframe]

theorem options_terminate (t : Target) (fault : Option Fault) :
    (t.terminate fault).2.options = t.options := by
  unfold terminate
  split <;> rfl

/-- The options of a target never change. -/
theorem options_handleNotification (t : Target) (store : BreakpointStore) (n : Notification) :
    (t.handleNotification store n).2.options = t.options := by
  unfold handleNotification
  split
  · rfl
  · rfl
  · rfl
  · exact t.options_terminate none
  · rfl
  · next id script root _ =>
      obtain ⟨_, hframe⟩ := t.scriptReady_frame store id script root
      rw [hframe]
  · next id frames _ =>
      obtain ⟨_, hframe⟩ := t.stackFrames_frame id frames
      rw [hframe]
  · next id frames reason _ =>
      obtain ⟨_, hframe⟩ := t.suspended_frame id frames reason
      rw [hframe]
  · next id mode _ =>
      obtain ⟨_, hframe⟩ := t.resumed_frame id mode
      rw [hframe]

theorem options_handleCommand (t : Target) (c : Command) :
    (t.handleCommand c).2.options = t.options := by
  unfold handleCommand
  split
  · rfl
  · cases c with
    | resume id mode =>
        dsimp only
        split <;> rfl
    | disconnect => exact t.options_terminate none
    | terminate | setBreakpoint => rfl

/-- The start of the engine is no matter of threads. -/
theorem handleNotification_engineStarted {t : Target} (hlive : t.state ≠ .terminated)
    (store : BreakpointStore) :
    (t.handleNotification store .engineStarted).2.registry = t.registry ∧
      (t.handleNotification store .engineStarted).2.state = .running := by
  cases hs : t.state with
  | terminated => exact absurd hs hlive
  | notStarted | running => simp [handleNotification, hs]

/-- Only its end ends a session among the reports. -/
theorem state_handleNotification {t : Target} (h : t.state ≠ .terminated) (store : BreakpointStore)
    {n : Notification} (hn : n ≠ .engineTerminated) :
    (t.handleNotification store n).2.state ≠ .terminated := by
  cases hs : t.state with
  | terminated => exact absurd hs h
  | notStarted => cases n <;> simp_all [handleNotification]
  | running =>
      cases n with
      | engineTerminated => exact absurd rfl hn
      | engineStarted => simp [handleNotification, hs]
      | scriptReady => simp [handleNotification, hs, state_scriptReady]
      | stackFrames => simp [handleNotification, hs, state_stackFrames]
      | suspended => simp [handleNotification, hs, state_suspended]
      | resumed => simp [handleNotification, hs, state_resumed]

/-- Only `disconnect` ends a session among the commands. -/
theorem state_handleCommand {t : Target} (h : t.state ≠ .terminated) {c : Command}
    (hc : c ≠ .disconnect) : (t.handleCommand c).2.state ≠ .terminated := by
  unfold handleCommand
  split
  · exact h
  · cases c with
    | resume id mode =>
        dsimp only
        split <;> exact h
    | terminate | setBreakpoint => exact h
    | disconnect => exact absurd rfl hc

/-- The end of a session ends it, whatever it was before. -/
theorem state_terminate (t : Target) (fault : Option Fault) :
    (t.terminate fault).2.state = .terminated := by
  unfold terminate
  split
  · next h => simpa [isTerminated] using h
  · rfl

theorem state_handleNotification_engineTerminated (t : Target) (store : BreakpointStore) :
    (t.handleNotification store .engineTerminated).2.state = .terminated := by
  cases hs : t.state with
  | terminated => rwa [handleNotification_of_terminated hs]
  | notStarted | running => simpa [handleNotification, hs] using t.state_terminate none

theorem state_handleCommand_disconnect {t : Target} (h : t.state ≠ .terminated) :
    (t.handleCommand .disconnect).2.state = .terminated := by
  have hterm : ¬ t.isTerminated = true := by simpa [isTerminated] using h
  rw [handleCommand, if_neg hterm]
  exact t.state_terminate none

end Target

end Pausepoint
