import Pausepoint.Proofs.Session.Lifecycle
import Pausepoint.Proofs.Session.Orders
import Pausepoint.World.Basic

/-!
# Pausepoint.Proofs.World.Repetition

Events that are dispatched for a second time.

An event is *in force* if what it asks for is the case already: the thread has this stack, it runs in this
mode, the breakpoint is installed. Whoever dispatches an event that is in force shows nothing new to
clients and gives the engine nothing new either (`Event.InForce.dispatch`).

* An event is in force once it was dispatched (`Event.inForce_after`), unless it is a pause;
* it stays so when another event is dispatched (`Event.InForce.after_other`), unless that one *unsettles*
  it: it undoes it, or it is a pause of the same thread.

`Event.undoes` is the first of these: the opposite change of a breakpoint, another stack, another way to go
on. What the engine will have got by the end of an agenda is `Session.outlook`.
-/

namespace Pausepoint

/-! ### Which event undoes which -/

namespace Event

/-- Is the event behind another one about the same matter, and to another effect? -/
def undoes : Event → Event → Bool
  | .command (.setBreakpoint script b action), .command (.setBreakpoint script' b' action') =>
      decide (script = script' ∧ b = b' ∧ action ≠ action')
  | .notification (.stackFrames id frames), .notification (.stackFrames id' frames') =>
      decide (id = id' ∧ frames ≠ frames')
  | .notification (.resumed id mode), .notification (.resumed id' mode') =>
      decide (id = id' ∧ mode.resultingState ≠ mode'.resultingState)
  | _, _ => false

/-- An event that undoes another one, or stops its thread. -/
def Unsettles (x e : Event) : Prop :=
  x.undoes e = true ∨ x.isPause = true ∧ ∃ id, x.subject? = some id ∧ e.subject? = some id

/-- What an event can be that is about a thread and does not stop it. -/
theorem cases_of_subject {e : Event} {id : ThreadId} (hid : e.subject? = some id)
    (hcalm : e.isPause = false) : (∃ frames, e = .notification (.stackFrames id frames)) ∨
      (∃ mode, e = .notification (.resumed id mode)) ∨ ∃ mode, e = .command (.resume id mode) := by
  cases e with
  | notification n =>
      cases n with
      | engineStarted | engineTerminated => cases hid
      | scriptReady | suspended => cases hcalm
      | stackFrames other frames =>
          obtain rfl := Option.some.inj hid
          exact .inl ⟨frames, rfl⟩
      | resumed other mode =>
          obtain rfl := Option.some.inj hid
          exact .inr (.inl ⟨mode, rfl⟩)
  | command c =>
      cases c with
      | resume other mode =>
          obtain rfl := Option.some.inj hid
          exact .inr (.inr ⟨mode, rfl⟩)
      | terminate | disconnect | setBreakpoint => cases hid

end Event

/-! ### Breakpoints in the engine -/

namespace Engine

/-- Two engines with the same breakpoints for every script. -/
def SameBreakpoints (e f : Engine) : Prop :=
  ∀ id, f.breakpointsOf id = e.breakpointsOf id

namespace SameBreakpoints

variable {e f g : Engine}

theorem refl (e : Engine) : SameBreakpoints e e :=
  fun _ => rfl

theorem symm (h : SameBreakpoints e f) : SameBreakpoints f e :=
  fun id => (h id).symm

theorem trans (h : SameBreakpoints e f) (h' : SameBreakpoints f g) : SameBreakpoints e g :=
  fun id => (h' id).trans (h id)

end SameBreakpoints

theorem sameBreakpoints_close (e : Engine) : SameBreakpoints e e.close := by
  intro id
  unfold close
  split <;> rfl

/-- What a change of a breakpoint makes of the breakpoints of a script. -/
theorem breakpointsOf_setBreakpoint (e : Engine) (script : ScriptId) (b : Breakpoint)
    (action : BreakpointAction) (id : ScriptId) :
    (e.apply (.setBreakpoint script b action)).breakpointsOf id =
      if id = script then b.apply action (e.breakpointsOf id) else e.breakpointsOf id := by
  rw [breakpointsOf, apply, Table.get?_insert]
  split
  · next h => rw [h]; rfl
  · rfl

/-- Any other command changes no breakpoint, unless it is the end of everything. -/
theorem sameBreakpoints_apply (e : Engine) {c : Command} (hc : c ≠ .disconnect)
    (hset : ∀ script b action, c ≠ .setBreakpoint script b action) : SameBreakpoints e (e.apply c) := by
  cases c with
  | resume thread mode =>
      intro id
      unfold apply
      dsimp only
      split <;> rfl
  | terminate => exact e.sameBreakpoints_close
  | disconnect => exact absurd rfl hc
  | setBreakpoint script b action => exact absurd rfl (hset script b action)

theorem SameBreakpoints.apply {e f : Engine} (h : SameBreakpoints e f) (c : Command) :
    SameBreakpoints (e.apply c) (f.apply c) := by
  by_cases hc : c = .disconnect
  · subst hc
    exact .refl _
  · by_cases hset : ∃ script b action, c = .setBreakpoint script b action
    · obtain ⟨script, b, action, rfl⟩ := hset
      intro id
      rw [breakpointsOf_setBreakpoint, breakpointsOf_setBreakpoint, h id]
    · have hother (script b action) : c ≠ .setBreakpoint script b action :=
        fun he => hset ⟨script, b, action, he⟩
      exact ((e.sameBreakpoints_apply hc hother).symm.trans h).trans (f.sameBreakpoints_apply hc hother)

open World (effectOnEngine)

theorem SameBreakpoints.effect {e f : Engine} (h : SameBreakpoints e f) (task : Task) :
    SameBreakpoints (effectOnEngine e task) (effectOnEngine f task) := by
  cases task with
  | forward c =>
      unfold effectOnEngine
      dsimp only
      split
      · exact h
      · exact h.apply c
  | forwardClosed => exact (e.sameBreakpoints_close.symm.trans h).trans f.sameBreakpoints_close
  | release | releaseAll | callback | followUp | command | lastCallback | closeQueue | closeGate
  | announceClosed | finish => exact h

/-- A task that passes nothing on changes no breakpoint. -/
theorem sameBreakpoints_effect (e : Engine) {task : Task} (h : task.forwarded? = none) :
    SameBreakpoints e (effectOnEngine e task) := by
  cases task with
  | forward c => cases h
  | forwardClosed => exact e.sameBreakpoints_close
  | release | releaseAll | callback | followUp | command | lastCallback | closeQueue | closeGate
  | announceClosed | finish => exact .refl e

/-- Of some tasks only those count that pass something on. -/
theorem sameBreakpoints_foldl {e f : Engine} (h : SameBreakpoints e f) (tasks : List Task) :
    SameBreakpoints ((tasks.filterMap Task.forwarded?).foldl (fun e c => effectOnEngine e (.forward c)) e)
      (tasks.foldl effectOnEngine f) := by
  induction tasks generalizing e f with
  | nil => exact h
  | cons task rest ih =>
      rw [List.foldl_cons]
      cases hforward : task.forwarded? with
      | none =>
          rw [List.filterMap_cons_none hforward]
          exact ih (h.trans (f.sameBreakpoints_effect hforward))
      | some c =>
          rw [List.filterMap_cons_some hforward, List.foldl_cons]
          obtain rfl : task = .forward c := by
            cases task with
            | forward d => rw [Option.some.inj hforward]
            | release | releaseAll | callback | followUp | command | lastCallback | closeQueue | closeGate
            | forwardClosed | announceClosed | finish => cases hforward
          exact ih (h.effect _)

end Engine

open World (effectOnEngine)

/-- The engine once it has got everything that the dispatcher is about to pass on. -/
def Session.outlook (s : Session) (engine : Engine) : Engine :=
  s.worker.agenda.foldl effectOnEngine engine

/-- What an event brings the engine: itself, if it is a command that is delivered. -/
theorem Session.sameBreakpoints_tasksAfter (s : Session) (e : Event) (engine : Engine) :
    (∃ c, e = .command c ∧ (s.target.handleCommand c).1.deliver = true ∧ Engine.SameBreakpoints
        (effectOnEngine engine (.forward c)) ((s.tasksAfter e).foldl effectOnEngine engine)) ∨
      (∀ c, e = .command c → (s.target.handleCommand c).1.deliver = false) ∧
        Engine.SameBreakpoints engine ((s.tasksAfter e).foldl effectOnEngine engine) := by
  have hall := Engine.sameBreakpoints_foldl (.refl engine) (s.tasksAfter e)
  cases e with
  | notification n =>
      rw [tasksAfter, forwarded_notificationTasks] at hall
      exact .inr ⟨fun c hc => (by cases hc), hall⟩
  | command c =>
      rw [tasksAfter, forwarded_commandTasks] at hall
      cases hd : (s.target.handleCommand c).1.deliver with
      | true =>
          rw [hd] at hall
          exact .inl ⟨c, rfl, hd, hall⟩
      | false =>
          rw [hd] at hall
          refine .inr ⟨fun d hc => ?_, hall⟩
          obtain rfl := Event.command.inj hc
          exact hd

/-! ### What an event does to its thread -/

/-- A target that goes on: as soon as it knows of a thread it runs, and the thread runs or is suspended. -/
structure Target.Lively (t : Target) : Prop where
  indexed : t.registry.Indexed
  going : t.state ≠ .terminated
  active : ∀ id, ∀ state ∈ t.stateOf id, t.state = .running ∧ state.IsActive

/-- It goes on as well if it shows the same. -/
theorem Target.Lively.of_matches {t u : Target} (h : t.Lively) (hm : t.Matches u)
    (hr : u.registry.Indexed) : u.Lively where
  indexed := hr
  going he := h.going (hm.state.symm.trans he)
  active id state hstate := by
    rw [hm.stateOf] at hstate
    rw [hm.state]
    exact h.active id state hstate

namespace Session

variable {s : Session}

/-- The target of a session in agreement goes on. -/
theorem Agrees.lively (h : s.Agrees) (hl : s.IsLive) : s.target.Lively where
  indexed := h.indexed
  going := hl.target
  active id state hstate := ⟨h.running hl hstate, (h.agreesOn id).active state hstate⟩

/-- Whoever is not the subject of an event stays as it is. -/
theorem thread?_targetAfter (h : s.target.Lively) {x : Event}
    (hstill : (s.targetAfter x).state ≠ .terminated) {id : ThreadId} (hid : x.subject? ≠ some id) :
    (s.targetAfter x).thread? id = s.target.thread? id := by
  cases x with
  | notification n => exact (Target.report_other h.indexed s.breakpoints hid hstill).2.2
  | command c =>
      have hc : c ≠ .disconnect := by
        rintro rfl
        exact hstill (Target.state_handleCommand_disconnect h.going)
      refine (Target.command_other h.indexed hc).2.2 id fun mode he => hid ?_
      rw [he]
      rfl

/-- Another stack: the thread does what it did before, and shows these frames. -/
theorem targetAfter_stackFrames (h : s.target.Lively) (id : ThreadId) (frames : List Frame) :
    (s.targetAfter (.notification (.stackFrames id frames))).stateOf id = s.target.stateOf id ∧
      ∀ shown ∈ (s.targetAfter (.notification (.stackFrames id frames))).framesOf id,
        shown = s.target.shown frames := by
  cases hthread : s.target.thread? id with
  | none =>
      have hnone : (s.targetAfter (.notification (.stackFrames id frames))).thread? id = none := by
        show (s.target.handleNotification s.breakpoints (.stackFrames id frames)).2.thread? id = none
        cases hs : s.target.state with
        | terminated => exact absurd hs h.going
        | notStarted => simp only [Target.handleNotification, hs, hthread]
        | running => simp only [Target.handleNotification, hs, Target.stackFrames, Target.transition?,
            hthread, Option.bind_none]
      simp [Target.stateOf, Target.framesOf, hnone, hthread]
  | some before =>
      obtain ⟨hrun, hactive⟩ := h.active id before.state (by simp [Target.stateOf, hthread])
      have hne : before.state ≠ .terminated := by
        rcases hactive with he | he | he <;> simp [he]
      obtain ⟨next, hframes, hid, hstate, -⟩ := DebugThread.replaceFrames_of_ne hne (s.target.shown frames)
      have hm := Target.moves_of_transition h.indexed hthread hid
      have htarget : s.targetAfter (.notification (.stackFrames id frames)) = s.target.setThread next := by
        show (s.target.handleNotification s.breakpoints (.stackFrames id frames)).2 = _
        simp only [Target.handleNotification, hrun, Target.stackFrames, Target.transition?, hthread,
          Option.bind_some, hframes, Except.toOption]
      rw [htarget, hm.stateOf_self, hstate]
      refine ⟨by simp [Target.stateOf, hthread], fun shown hshown => ?_⟩
      rw [Target.framesOf, hm.self, Option.map_some, Option.mem_some] at hshown
      rw [← hshown, (DebugThread.carries_replaceFrames hframes).frames]

/-- Going on: the thread shows what it showed before, and goes on in this mode. -/
theorem targetAfter_resumed (h : s.target.Lively) (id : ThreadId) (mode : Mode) :
    (s.targetAfter (.notification (.resumed id mode))).framesOf id = s.target.framesOf id ∧
      ∀ state ∈ (s.targetAfter (.notification (.resumed id mode))).stateOf id,
        state = mode.resultingState := by
  cases hthread : s.target.thread? id with
  | none =>
      have hnone : (s.targetAfter (.notification (.resumed id mode))).thread? id = none := by
        show (s.target.handleNotification s.breakpoints (.resumed id mode)).2.thread? id = none
        cases hs : s.target.state with
        | terminated => exact absurd hs h.going
        | notStarted => simp only [Target.handleNotification, hs, hthread]
        | running => simp only [Target.handleNotification, hs, Target.resumed, hthread]
      simp [Target.stateOf, Target.framesOf, hnone, hthread]
  | some before =>
      obtain ⟨hrun, hactive⟩ := h.active id before.state (by simp [Target.stateOf, hthread])
      have hresumed : before.noteResumed mode =
          .ok { before with state := mode.resultingState, lastResume := some mode } := by
        rcases hactive with he | he | he <;> simp [DebugThread.noteResumed, he]
      have hm : s.target.Moves (s.target.setThread
          { before with state := mode.resultingState, lastResume := some mode }) id _ :=
        Target.moves_of_transition h.indexed hthread rfl
      have htarget : s.targetAfter (.notification (.resumed id mode)) = s.target.setThread
          { before with state := mode.resultingState, lastResume := some mode } := by
        show (s.target.handleNotification s.breakpoints (.resumed id mode)).2 = _
        simp only [Target.handleNotification, hrun, Target.resumed, hthread, hresumed]
      rw [htarget]
      refine ⟨?_, fun state hstate => ?_⟩
      · rw [Target.framesOf, Target.framesOf, hm.self, hthread]
        rfl
      · rw [hm.stateOf_self, Option.mem_some] at hstate
        exact hstate.symm

/-- A decision: the thread shows what it showed before, and no longer waits. Unless it did, nothing
happens. -/
theorem targetAfter_resume (h : s.target.Lively) (id : ThreadId) (mode : Mode) :
    (s.targetAfter (.command (.resume id mode))).framesOf id = s.target.framesOf id ∧
      (s.targetAfter (.command (.resume id mode))).stateOf id ≠ some .suspended ∧
      (s.target.stateOf id ≠ some .suspended →
        s.targetAfter (.command (.resume id mode)) = s.target) := by
  have hterm : s.target.isTerminated = false := by simpa [Target.isTerminated] using h.going
  by_cases hs : s.target.stateOf id = some .suspended
  · obtain ⟨before, hthread, hstate⟩ := Target.exists_thread_of_stateOf hs
    have happly : before.applyResume mode =
        .ok { before with state := mode.resultingState, lastResume := some mode } := if_pos hstate
    have hm : s.target.Moves (s.target.setThread
        { before with state := mode.resultingState, lastResume := some mode }) id _ :=
      Target.moves_of_transition h.indexed hthread rfl
    have htarget : s.targetAfter (.command (.resume id mode)) = s.target.setThread
        { before with state := mode.resultingState, lastResume := some mode } := by
      show (s.target.handleCommand (.resume id mode)).2 = _
      simp only [Target.handleCommand, hterm, Bool.false_eq_true, if_false, Target.transition?, hthread,
        Option.bind_some, happly, Except.toOption]
    rw [htarget]
    refine ⟨?_, ?_, fun hne => absurd hs hne⟩
    · rw [Target.framesOf, Target.framesOf, hm.self, hthread]
      rfl
    · rw [hm.stateOf_self]
      exact fun he => mode.runs_resultingState.ne_suspended (Option.some.inj he)
  · have htarget : s.targetAfter (.command (.resume id mode)) = s.target :=
      congrArg Prod.snd (Target.handleCommand_resume_of_ne mode hs)
    rw [htarget]
    exact ⟨rfl, hs, fun _ => rfl⟩

end Session

/-! ### What stays as it is -/

theorem Breakpoint.mem_apply {b c : Breakpoint} {action : BreakpointAction} {list : List Breakpoint} :
    b ∈ c.apply action list ↔ if b = c then action = .add else b ∈ list := by
  cases action with
  | add => by_cases h : b = c <;> simp [Breakpoint.apply, h]
  | remove => by_cases h : b = c <;> simp [Breakpoint.apply, h]

namespace Session

variable {s : Session} {x : Event} {id : ThreadId}

/-- Who has started stays so. -/
theorem targetAfter_started (h : s.target.state ≠ .notStarted) : (s.targetAfter x).state ≠ .notStarted := by
  intro hafter
  have hstage := s.stage_targetAfter x
  rw [hafter] at hstage
  cases hs : s.target.state with
  | notStarted => exact h hs
  | running | terminated => simp [hs, SessionState.stage] at hstage

/-- Which frames of a stack are shown never changes. -/
theorem shown_targetAfter (s : Session) (x : Event) (frames : List Frame) :
    (s.targetAfter x).shown frames = s.target.shown frames := by
  have hsame : (s.targetAfter x).options = s.target.options := by
    cases x with
    | notification n => exact Target.options_handleNotification _ _ _
    | command c => exact Target.options_handleCommand _ _
  rw [Target.shown, Target.shown, hsame]

/-- A thread that shows these frames goes on to show them, unless it stops or another stack is reported. -/
theorem frames_after_other (h : s.target.Lively) (hstill : (s.targetAfter x).state ≠ .terminated)
    {frames : List Frame} (he : ∀ shown ∈ s.target.framesOf id, shown = s.target.shown frames)
    (hcalm : x.subject? = some id → x.isPause = false)
    (hundone : x.undoes (.notification (.stackFrames id frames)) = false) :
    ∀ shown ∈ (s.targetAfter x).framesOf id, shown = s.target.shown frames := by
  intro shown hshown
  by_cases hid : x.subject? = some id
  · obtain ⟨frames', rfl⟩ | ⟨mode, rfl⟩ | ⟨mode, rfl⟩ := Event.cases_of_subject hid (hcalm hid)
    · obtain rfl : frames' = frames := by simpa [Event.undoes] using hundone
      exact (targetAfter_stackFrames h id frames').2 shown hshown
    · rw [(targetAfter_resumed h id mode).1] at hshown
      exact he shown hshown
    · rw [(targetAfter_resume h id mode).1] at hshown
      exact he shown hshown
  · rw [Target.framesOf, thread?_targetAfter h hstill hid] at hshown
    exact he shown hshown

/-- A thread that runs in this mode goes on to do so, unless it stops or goes on in another mode. -/
theorem mode_after_other (h : s.target.Lively) (hstill : (s.targetAfter x).state ≠ .terminated)
    {mode : Mode} (he : ∀ state ∈ s.target.stateOf id, state = mode.resultingState)
    (hcalm : x.subject? = some id → x.isPause = false)
    (hundone : x.undoes (.notification (.resumed id mode)) = false) :
    ∀ state ∈ (s.targetAfter x).stateOf id, state = mode.resultingState := by
  intro state hstate
  by_cases hid : x.subject? = some id
  · obtain ⟨frames, rfl⟩ | ⟨mode', rfl⟩ | ⟨mode', rfl⟩ := Event.cases_of_subject hid (hcalm hid)
    · rw [(targetAfter_stackFrames h id frames).1] at hstate
      exact he state hstate
    · have hsame : mode'.resultingState = mode.resultingState := by simpa [Event.undoes] using hundone
      rw [(targetAfter_resumed h id mode').2 state hstate, hsame]
    · -- A decision does nothing to a thread that runs.
      have hruns : s.target.stateOf id ≠ some .suspended := fun hs =>
        mode.runs_resultingState.ne_suspended (he _ hs).symm
      rw [(targetAfter_resume h id mode').2.2 hruns] at hstate
      exact he state hstate
  · rw [Target.stateOf, thread?_targetAfter h hstill hid] at hstate
    exact he state hstate

/-- A thread that does not wait for a decision begins to do so only by a stop. -/
theorem going_after_other (h : s.target.Lively) (hstill : (s.targetAfter x).state ≠ .terminated)
    (he : s.target.stateOf id ≠ some .suspended) (hcalm : x.subject? = some id → x.isPause = false) :
    (s.targetAfter x).stateOf id ≠ some .suspended := by
  by_cases hid : x.subject? = some id
  · obtain ⟨frames, rfl⟩ | ⟨mode, rfl⟩ | ⟨mode, rfl⟩ := Event.cases_of_subject hid (hcalm hid)
    · rw [(targetAfter_stackFrames h id frames).1]
      exact he
    · exact fun hs => mode.runs_resultingState.ne_suspended ((targetAfter_resumed h id mode).2 _ hs).symm
    · exact (targetAfter_resume h id mode).2.1
  · rw [Target.stateOf, thread?_targetAfter h hstill hid]
    exact he

/-- A breakpoint stays as it was left by one change of it until another change undoes that one. -/
theorem breakpoint_after_other (h : s.target.Lively) (hstill : (s.targetAfter x).state ≠ .terminated)
    {engine : Engine} {script : ScriptId} {b : Breakpoint} {action : BreakpointAction}
    (he : b ∈ engine.breakpointsOf script ↔ action = .add)
    (hundone : x.undoes (.command (.setBreakpoint script b action)) = false) :
    b ∈ ((s.tasksAfter x).foldl effectOnEngine engine).breakpointsOf script ↔ action = .add := by
  obtain ⟨c, rfl, -, hsame⟩ | ⟨-, hsame⟩ := s.sameBreakpoints_tasksAfter x engine
  · rw [hsame, effectOnEngine]
    by_cases hmarker : c = marker
    · rwa [if_pos hmarker]
    · rw [if_neg hmarker]
      by_cases hset : ∃ script' b' action', c = .setBreakpoint script' b' action'
      · obtain ⟨script', b', action', rfl⟩ := hset
        rw [Engine.breakpointsOf_setBreakpoint]
        split
        · next hscript =>
            rw [Breakpoint.mem_apply]
            split
            · next hb =>
                have hsame : action' = action := by simpa [Event.undoes, hscript, hb] using hundone
                rw [hsame]
            · exact he
        · exact he
      · have hc : c ≠ .disconnect := by
          rintro rfl
          exact hstill (Target.state_handleCommand_disconnect h.going)
        have hkeeps := engine.sameBreakpoints_apply hc fun script' b' action' hce =>
          hset ⟨script', b', action', hce⟩
        rwa [hkeeps]
  · rwa [hsame]

end Session

/-! ### What is done again -/

/-- A change that was made already changes nothing. -/
theorem Breakpoint.apply_of_inForce {b : Breakpoint} {action : BreakpointAction} {list : List Breakpoint}
    (h : b ∈ list ↔ action = .add) : b.apply action list = list := by
  cases action with
  | add => exact if_pos (h.mpr rfl)
  | remove =>
      have hb : b ∉ list := fun hb => by cases h.mp hb
      refine List.filter_eq_self.mpr fun c hc => decide_eq_true ?_
      rintro rfl
      exact hb hc

/-- A thread that reports that it goes on does so. -/
theorem DebugThread.state_of_noteResumed {t next : DebugThread} {mode : Mode}
    (h : t.noteResumed mode = .ok next) : next.state = mode.resultingState := by
  unfold noteResumed at h
  split at h <;> cases h <;> rfl

namespace Session

variable {s : Session} {id : ThreadId}

/-- The stack that a thread shows, reported again. -/
theorem matches_stackFrames_again (h : s.target.Lively) (hself : s.target.Matches s.target)
    {frames : List Frame} (he : ∀ shown ∈ s.target.framesOf id, shown = s.target.shown frames) :
    s.target.Matches (s.targetAfter (.notification (.stackFrames id frames))) := by
  show s.target.Matches (s.target.handleNotification s.breakpoints (.stackFrames id frames)).2
  cases hs : s.target.state with
  | terminated => exact absurd hs h.going
  | notStarted => simpa only [Target.handleNotification, hs] using hself
  | running =>
      simp only [Target.handleNotification, hs, Target.stackFrames]
      split
      · next next htrans =>
          obtain ⟨before, hbefore, hframes⟩ := Target.exists_of_transition htrans
          obtain ⟨hid, hstate⟩ := DebugThread.replaceFrames_cases hframes
          obtain ⟨frames', hcarries, -⟩ := (hself.thread_self hbefore).stack
          -- The sheets are new, what they show is not.
          have hshown : frames' = s.target.shown frames :=
            he frames' (by simp [Target.framesOf, hbefore, hcarries.frames])
          rw [hshown] at hcarries
          exact Target.matches_setThread h.indexed hself hbefore
            ⟨hid, hstate, _, hcarries, DebugThread.carries_replaceFrames hframes⟩
      · exact hself

/-- A thread that runs in some mode reports again that it goes on in this mode. -/
theorem matches_resumed_again (h : s.target.Lively) (hself : s.target.Matches s.target) {mode : Mode}
    (he : ∀ state ∈ s.target.stateOf id, state = mode.resultingState) :
    s.target.Matches (s.targetAfter (.notification (.resumed id mode))) := by
  show s.target.Matches (s.target.handleNotification s.breakpoints (.resumed id mode)).2
  cases hs : s.target.state with
  | terminated => exact absurd hs h.going
  | notStarted => simpa only [Target.handleNotification, hs] using hself
  | running =>
      simp only [Target.handleNotification, hs, Target.resumed]
      split
      · exact hself
      · next before hbefore =>
          have hstate : before.state = mode.resultingState :=
            he before.state (by simp [Target.stateOf, hbefore])
          split
          · exact hself
          · next next hnext =>
              obtain ⟨hid, hsheets⟩ := DebugThread.noteResumed_cases hnext
              obtain ⟨frames, hcarries, -⟩ := (hself.thread_self hbefore).stack
              exact Target.matches_setThread h.indexed hself hbefore
                ⟨hid, (DebugThread.state_of_noteResumed hnext).trans hstate.symm, frames, hcarries,
                  hcarries.of_sheets hsheets⟩

/-- The engine has started already. -/
theorem matches_started_again (h : s.target.Lively) (hself : s.target.Matches s.target)
    (he : s.target.state ≠ .notStarted) : s.target.Matches (s.targetAfter (.notification .engineStarted)) := by
  have hrun : s.target.state = .running := by
    cases hs : s.target.state with
    | notStarted => exact absurd hs he
    | running => rfl
    | terminated => exact absurd hs h.going
  show s.target.Matches (s.target.handleNotification s.breakpoints .engineStarted).2
  simpa only [Target.handleNotification, hrun] using hself

end Session

/-- A change of a breakpoint that was made already, or that engines ignore. -/
theorem Engine.sameBreakpoints_setBreakpoint_again {engine : Engine} {script : ScriptId} {b : Breakpoint}
    {action : BreakpointAction} (he : Command.setBreakpoint script b action = marker ∨
      (b ∈ engine.breakpointsOf script ↔ action = .add)) :
    engine.SameBreakpoints (effectOnEngine engine (.forward (.setBreakpoint script b action))) := by
  intro id
  unfold effectOnEngine
  by_cases hmarker : Command.setBreakpoint script b action = marker
  · simp only [if_pos hmarker]
  · simp only [if_neg hmarker]
    rw [breakpointsOf_setBreakpoint]
    split
    · next hid => rw [hid, Breakpoint.apply_of_inForce (he.resolve_left hmarker)]
    · rfl

/-! ### Events in force -/

/-- A task that shows nothing new to the session or to an engine. -/
def Task.IsSpare (engine : Engine) : Task → Prop
  | .callback _ | .command _ => True
  | .forward c => Engine.SameBreakpoints engine (effectOnEngine engine (.forward c))
  | .release _ | .releaseAll | .followUp _ | .lastCallback _ | .closeQueue | .closeGate | .forwardClosed
  | .announceClosed | .finish _ => False

namespace Task.IsSpare

variable {engine engine' : Engine} {task : Task}

theorem congr (h : task.IsSpare engine) (hsame : engine.SameBreakpoints engine') : task.IsSpare engine' := by
  cases task with
  | callback | command => trivial
  | forward c => exact (hsame.symm.trans h).trans (hsame.effect _)
  | release | releaseAll | followUp | lastCallback | closeQueue | closeGate | forwardClosed
  | announceClosed | finish => exact h

theorem sameBreakpoints (h : task.IsSpare engine) : engine.SameBreakpoints (effectOnEngine engine task) := by
  cases task with
  | callback | command => exact .refl _
  | forward c => exact h
  | release | releaseAll | followUp | lastCallback | closeQueue | closeGate | forwardClosed
  | announceClosed | finish => exact h.elim

theorem effect (h : task.IsSpare engine) (s : Session) : s.effect task = s := by
  cases task with
  | callback | command | forward => rfl
  | release | releaseAll | followUp | lastCallback | closeQueue | closeGate | forwardClosed
  | announceClosed | finish => exact h.elim

end Task.IsSpare

namespace Event

/-- Is what an event asks for the case already? Of a pause this is never said, nor of an end. -/
def InForce (t : Target) (engine : Engine) : Event → Prop
  | .notification .engineStarted => t.state ≠ .notStarted
  | .notification (.stackFrames id frames) => ∀ shown ∈ t.framesOf id, shown = t.shown frames
  | .notification (.resumed id mode) => ∀ state ∈ t.stateOf id, state = mode.resultingState
  | .command (.resume id _) => t.stateOf id ≠ some .suspended
  | .command (.setBreakpoint script b action) => Command.setBreakpoint script b action = marker ∨
      (b ∈ engine.breakpointsOf script ↔ action = .add)
  | .notification .engineTerminated | .notification (.scriptReady ..) | .notification (.suspended ..)
  | .command .terminate | .command .disconnect => False

/-- It is asked only of what a target shows, and of the breakpoints in the engine. -/
theorem InForce.congr {e : Event} {t u : Target} {engine engine' : Engine} (h : e.InForce t engine)
    (hm : t.Matches u) (hengine : engine.SameBreakpoints engine') : e.InForce u engine' := by
  cases e with
  | notification n =>
      cases n with
      | engineStarted => exact fun he => h (hm.state.symm.trans he)
      | stackFrames id frames =>
          intro shown hshown
          rw [hm.framesOf] at hshown
          rw [hm.shown]
          exact h shown hshown
      | resumed id mode =>
          intro state hstate
          rw [hm.stateOf] at hstate
          exact h state hstate
      | engineTerminated | scriptReady | suspended => exact h
  | command c =>
      cases c with
      | resume id mode => exact fun he => h ((hm.stateOf id).symm.trans he)
      | setBreakpoint script b action => exact h.imp id fun hb => by rwa [hengine script]
      | terminate | disconnect => exact h

variable {s : Session} {e x : Event} {engine : Engine}

/-- **An event is in force once it was dispatched**, unless it is a pause or an end. -/
theorem inForce_after (h : s.target.Lively) (hcalm : e.isPause = false) (hterm : e ≠ .command .terminate)
    (hstill : (s.targetAfter e).state ≠ .terminated) (engine : Engine) :
    e.InForce (s.targetAfter e) ((s.tasksAfter e).foldl effectOnEngine engine) := by
  cases e with
  | notification n =>
      cases n with
      | engineStarted =>
          have hrun := (Target.handleNotification_engineStarted h.going s.breakpoints).2
          exact fun he => by cases hrun.symm.trans he
      | engineTerminated => exact absurd (Target.state_handleNotification_engineTerminated _ _) hstill
      | scriptReady | suspended => cases hcalm
      | stackFrames id frames =>
          intro shown hshown
          rw [Session.targetAfter, Target.shown, Target.options_handleNotification]
          exact (Session.targetAfter_stackFrames h id frames).2 shown hshown
      | resumed id mode => exact (Session.targetAfter_resumed h id mode).2
  | command c =>
      cases c with
      | resume id mode => exact (Session.targetAfter_resume h id mode).2.1
      | terminate => exact absurd rfl hterm
      | disconnect => exact absurd (Target.state_handleCommand_disconnect h.going) hstill
      | setBreakpoint script b action =>
          by_cases hmarker : Command.setBreakpoint script b action = marker
          · exact .inl hmarker
          right
          obtain ⟨c, hc, -, hsame⟩ | ⟨hnone, -⟩ :=
            s.sameBreakpoints_tasksAfter (.command (.setBreakpoint script b action)) engine
          · obtain rfl := Event.command.inj hc
            rw [hsame, effectOnEngine, if_neg hmarker, Engine.breakpointsOf_setBreakpoint, if_pos rfl,
              Breakpoint.mem_apply, if_pos rfl]
          · have hdeliver := hnone _ rfl
            simp [Target.handleCommand, Target.isTerminated, h.going] at hdeliver

/-- **It stays in force** when another one is dispatched that does not unsettle it. -/
theorem InForce.after_other (he : e.InForce s.target engine) (h : s.target.Lively)
    (hx : ¬ x.Unsettles e) (hstill : (s.targetAfter x).state ≠ .terminated) :
    e.InForce (s.targetAfter x) ((s.tasksAfter x).foldl effectOnEngine engine) := by
  -- What is about the same thread is no pause, and does not undo the event.
  have hcalm {id : ThreadId} (hsubject : e.subject? = some id) (hid : x.subject? = some id) :
      x.isPause = false :=
    Bool.eq_false_iff.mpr fun hp => hx (.inr ⟨hp, id, hid, hsubject⟩)
  have hundone : x.undoes e = false := Bool.eq_false_iff.mpr fun hu => hx (.inl hu)
  cases e with
  | notification n =>
      cases n with
      | engineTerminated | scriptReady | suspended => exact he.elim
      | engineStarted => exact Session.targetAfter_started he
      | stackFrames id frames =>
          intro shown hshown
          rw [Session.shown_targetAfter]
          exact Session.frames_after_other h hstill he (hcalm rfl) hundone shown hshown
      | resumed id mode => exact Session.mode_after_other h hstill he (hcalm rfl) hundone
  | command c =>
      cases c with
      | terminate | disconnect => exact he.elim
      | resume id mode => exact Session.going_after_other h hstill he (hcalm rfl)
      | setBreakpoint script b action =>
          exact he.imp id fun hb => Session.breakpoint_after_other h hstill hb hundone

/-- **Whoever dispatches an event that is in force** shows the same as before, and has nothing to do that
would change anything. -/
theorem InForce.dispatch (he : e.InForce s.target engine) (h : s.target.Lively)
    (hself : s.target.Matches s.target) :
    s.target.Matches (s.targetAfter e) ∧ ∀ task ∈ s.tasksAfter e, task.IsSpare engine := by
  -- A report that nothing follows leaves only callbacks.
  have htasks (n : Notification) (hn : n ≠ .engineTerminated) (hload : ∀ id script root,
      n ≠ .scriptReady id script root) : ∀ task ∈ s.tasksAfter (.notification n), task.IsSpare engine := by
    intro task htask
    simp only [Session.tasksAfter, notificationTasks, Target.followUps_of_ne s.target s.breakpoints hload,
      if_neg hn, List.map_nil, List.append_nil, List.mem_map] at htask
    obtain ⟨c, -, rfl⟩ := htask
    trivial
  cases e with
  | notification n =>
      cases n with
      | engineTerminated | scriptReady | suspended => exact he.elim
      | engineStarted => exact ⟨Session.matches_started_again h hself he, htasks _ (by decide) (by simp)⟩
      | stackFrames id frames =>
          exact ⟨Session.matches_stackFrames_again h hself he, htasks _ (by simp) (by simp)⟩
      | resumed id mode => exact ⟨Session.matches_resumed_again h hself he, htasks _ (by simp) (by simp)⟩
  | command c =>
      cases c with
      | terminate | disconnect => exact he.elim
      | resume id mode =>
          rw [Session.targetAfter, Session.tasksAfter, Target.handleCommand_resume_of_ne mode he]
          exact ⟨hself, fun task htask => absurd htask List.not_mem_nil⟩
      | setBreakpoint script b action =>
          have hterm : s.target.isTerminated = false := by simpa [Target.isTerminated] using h.going
          rw [Session.targetAfter, Session.tasksAfter,
            show s.target.handleCommand (.setBreakpoint script b action) = ({ deliver := true }, s.target) by
              simp [Target.handleCommand, hterm]]
          refine ⟨hself, fun task htask => ?_⟩
          obtain rfl | rfl : task = .command (.setBreakpoint script b action) ∨
              task = .forward (.setBreakpoint script b action) := by
            simpa [commandTasks, releaseTasks] using htask
          · trivial
          · exact Engine.sameBreakpoints_setBreakpoint_again he

end Event

end Pausepoint
