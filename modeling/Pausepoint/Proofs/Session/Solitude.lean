import Pausepoint.Proofs.Session.Indifference
import Pausepoint.Proofs.Session.Mirror

/-!
# Pausepoint.Proofs.Session.Solitude

A session in which nothing is called for more than one thread.

What is dispatched in a session was called for, or follows from what was. If all calls are for one thread,
then no other thread is ever heard of, and nothing that waits or is left to do is about one.

* `Event.Spares`, `Task.Spares` — what is no matter of other threads; unlike what concerns the thread, this
  includes the commands that install a breakpoint;
* `Session.Solitary` — the invariant;
* `Session.Solitary.call`, `Session.Solitary.take`, `Session.Solitary.perform` — it survives every step.
-/

namespace Pausepoint

variable {id : ThreadId}

/-! ### What spares other threads -/

/-- A command lets no other thread go on. -/
def Command.Spares (id : ThreadId) (c : Command) : Prop :=
  ∀ thread mode, c = .resume thread mode → thread = id

/-- An event is no matter of another thread. -/
def Event.Spares (id : ThreadId) : Event → Prop
  | .notification n => n.concerns id = true
  | .command c => c.Spares id

/-- Nor is a task. -/
def Task.Spares (id : ThreadId) : Task → Prop
  | .release thread => thread = id
  | .callback c | .lastCallback c => c.concerns id = true
  | .followUp c | .command c | .forward c => c.Spares id
  | .releaseAll | .closeQueue | .closeGate | .forwardClosed | .announceClosed | .finish _ => True

theorem Command.spares_resume (id : ThreadId) (mode : Mode) : Command.Spares id (.resume id mode) := by
  rintro thread mode ⟨⟩
  rfl

theorem Command.spares_setBreakpoint (script : ScriptId) (b : Breakpoint) (action : BreakpointAction) :
    Command.Spares id (.setBreakpoint script b action) := by
  rintro thread mode ⟨⟩

theorem Command.spares_of_concerns {c : Command} (hc : c.concerns id = true) : c.Spares id := by
  rintro thread mode rfl
  exact of_decide_eq_true hc

theorem spares_closing (exit : Exit) : ∀ task ∈ closing exit, task.Spares id := by
  intro task hmem
  simp only [closing, List.mem_cons, List.not_mem_nil, or_false] at hmem
  rcases hmem with rfl | rfl | rfl | rfl | rfl <;> trivial

/-- Effects that are no matter of other threads. -/
structure Effects.Spares (id : ThreadId) (e : Effects) : Prop where
  callbacks : ∀ c ∈ e.callbacks, c.concerns id = true
  followUps : ∀ c ∈ e.followUps, c.Spares id

namespace Effects

theorem Spares.nothing (id : ThreadId) (deliver : Bool) : Effects.Spares id { deliver } :=
  ⟨by simp, by simp⟩

theorem IsAbout.spares {e : Effects} (h : IsAbout id e) : e.Spares id where
  callbacks c hc := by simp [Callback.concerns, h.callbacks c hc]
  followUps c hc := by
    obtain ⟨mode, rfl⟩ | ⟨script, b, action, rfl⟩ := h.followUps c hc
    · exact Command.spares_resume id mode
    · exact Command.spares_setBreakpoint script b action

/-- They leave no task for other threads. -/
theorem Spares.listed {e : Effects} (h : e.Spares id) :
    ∀ task ∈ e.callbacks.map Task.callback ++ e.followUps.map Task.followUp, task.Spares id := by
  intro task hmem
  obtain hmem | hmem := List.mem_append.mp hmem
  · obtain ⟨c, hc, rfl⟩ := List.mem_map.mp hmem
    exact h.callbacks c hc
  · obtain ⟨c, hc, rfl⟩ := List.mem_map.mp hmem
    exact h.followUps c hc

theorem Spares.notificationTasks {e : Effects} (h : e.Spares id) (n : Notification) :
    ∀ task ∈ notificationTasks n e, task.Spares id := by
  intro task hmem
  obtain hmem | hmem := List.mem_append.mp hmem
  · exact h.listed task hmem
  · split at hmem
    · exact spares_closing _ task hmem
    · cases hmem

theorem Spares.commandTasks {e : Effects} (h : e.Spares id) {c : Command} (hc : c.Spares id) :
    ∀ task ∈ commandTasks c e, task.Spares id := by
  have hrelease : ∀ task ∈ releaseTasks c, task.Spares id := by
    intro task hmem
    cases c with
    | resume thread mode =>
        rw [List.mem_singleton.mp hmem]
        exact hc thread mode rfl
    | terminate | disconnect =>
        rw [List.mem_singleton.mp hmem]
        trivial
    | setBreakpoint => cases hmem
  intro task hmem
  unfold Pausepoint.commandTasks at hmem
  split at hmem
  · simp only [List.mem_append, List.mem_cons, List.not_mem_nil, or_false] at hmem
    rcases hmem with (((hmem | hmem) | hmem) | rfl | rfl) | hmem
    · exact hrelease task hmem
    · exact h.listed task (List.mem_append_left _ hmem)
    · exact h.listed task (List.mem_append_right _ hmem)
    · exact hc
    · exact hc
    · split at hmem
      · exact spares_closing _ task hmem
      · cases hmem
  · exact h.listed task hmem

end Effects

/-! ### Targets with one thread -/

namespace Target

variable {t : Target}

/-- No other thread was ever heard of. -/
def Solitary (id : ThreadId) (t : Target) : Prop :=
  ∀ other, other ≠ id → t.thread? other = none

theorem Solitary.terminate (h : t.Solitary id) (hr : t.registry.Exact) (fault : Option Fault) :
    (∀ c ∈ (t.terminate fault).1, c.concerns id = true) ∧ (t.terminate fault).2.Solitary id := by
  unfold Target.terminate
  split
  · exact ⟨by simp, h⟩
  · refine ⟨fun c hc => ?_, fun other hne => ?_⟩
    · obtain hc | hc := List.mem_append.mp hc
      · obtain ⟨thread, hended, rfl⟩ := List.mem_map.mp hc
        obtain ⟨before, hget, -⟩ := (mem_terminateAll hr).mp hended
        by_cases hne : thread = id
        · simp [Callback.concerns, Callback.thread?, hne]
        · rw [show t.registry.get? thread = none from h thread hne] at hget
          cases hget
      · rw [List.mem_singleton.mp hc]
        rfl
    · have hnone : t.registry.get? other = none := h other hne
      simp [thread?, Registry.get?_terminateAll, hnone]

/-- **A report that concerns the thread** makes no other known. -/
theorem Solitary.handleNotification (h : t.Solitary id) (hr : t.registry.Exact) (store : BreakpointStore)
    {n : Notification} (hn : n.concerns id = true) :
    (t.handleNotification store n).1.Spares id ∧ (t.handleNotification store n).2.Solitary id := by
  obtain hnone | hid := Notification.concerns_cases hn
  · cases n with
    | engineStarted =>
        cases hs : t.state <;> simp only [Target.handleNotification, hs]
        · exact ⟨⟨by simp [Callback.concerns, Callback.thread?], by simp⟩, h⟩
        · exact ⟨.nothing id false, h⟩
        · exact ⟨.nothing id false, h⟩
    | engineTerminated =>
        obtain ⟨hcallbacks, hended⟩ := h.terminate hr none
        cases hs : t.state <;> simp only [Target.handleNotification, hs]
        · exact ⟨⟨hcallbacks, by simp⟩, hended⟩
        · exact ⟨⟨hcallbacks, by simp⟩, hended⟩
        · exact ⟨.nothing id false, h⟩
    | scriptReady | stackFrames | suspended | resumed => cases hnone
  · refine ⟨(t.isAbout_handleNotification store hid).spares, fun other hne => ?_⟩
    obtain ⟨-, -, hothers⟩ := report_frame hr.indexed store hid
    exact (hothers other hne).trans (h other hne)

/-- **A command that spares the others** makes none known. -/
theorem Solitary.handleCommand (h : t.Solitary id) (hr : t.registry.Exact) {c : Command}
    (hc : c.Spares id) : (t.handleCommand c).1.Spares id ∧ (t.handleCommand c).2.Solitary id := by
  by_cases hgo : c = .disconnect
  · subst hgo
    unfold Target.handleCommand
    split
    · exact ⟨.nothing id false, h⟩
    · obtain ⟨hcallbacks, hended⟩ := h.terminate hr none
      exact ⟨⟨hcallbacks, by simp⟩, hended⟩
  · obtain ⟨-, -, hothers⟩ := command_other hr.indexed hgo
    refine ⟨?_, fun other hne => ?_⟩
    · unfold Target.handleCommand
      split
      · exact .nothing id false
      · cases c with
        | disconnect => exact absurd rfl hgo
        | terminate | setBreakpoint => exact .nothing id true
        | resume thread mode =>
            obtain rfl := hc thread mode rfl
            dsimp only
            split
            · exact ⟨by simp [Callback.concerns, Callback.thread?], by simp⟩
            · exact .nothing thread false
    · rw [hothers other fun mode he => hne (hc other mode he)]
      exact h other hne

end Target

/-! ### Sessions with one thread -/

namespace Session

variable {s s' : Session}

/-- Nothing in a session is about any other thread. -/
structure Solitary (id : ThreadId) (s : Session) : Prop where
  exact : s.target.registry.Exact
  threads : s.target.Solitary id
  events : ∀ e ∈ s.queue.events, e.Spares id
  agenda : ∀ task ∈ s.worker.agenda, task.Spares id

theorem solitary_create (id : ThreadId) (settings : DebuggerSettings) : (create settings).Solitary id where
  exact := Registry.exact_empty
  threads _ _ := rfl
  events _ hmem := by cases hmem
  agenda _ hmem := by cases hmem

/-- What a call for the thread queues is no matter of others. -/
theorem commanded_spares (s : Session) {c : ControlCall} (hc : Call.concerns (.control c) id = true)
    (hcancel : c ≠ .cancel) :
    ∃ cs : List Command, (∀ c ∈ cs, c.Spares id) ∧ s.Commanded (c.run s) cs := by
  -- A call gives one command, or one for each script that it concerns.
  have hone {c : Command} {cs : List Command} (hc : c.Spares id) (hsub : cs ⊆ [c]) :
      ∀ c ∈ cs, c.Spares id := by
    intro other hmem
    rw [List.mem_singleton.mp (hsub hmem)]
    exact hc
  have hset {cs : List Command}
      (hcs : ∀ c ∈ cs, ∃ script b action, c = .setBreakpoint script b action) :
      ∀ c ∈ cs, c.Spares id := by
    intro c hmem
    obtain ⟨script, b, action, rfl⟩ := hcs c hmem
    exact Command.spares_setBreakpoint script b action
  cases c with
  | cancel => exact absurd rfl hcancel
  | resumeAll => cases hc
  | resume thread mode =>
      obtain rfl : thread = id := of_decide_eq_true hc
      obtain ⟨cs, hsub, h⟩ := s.commanded_resume thread mode
      exact ⟨cs, hone (Command.spares_resume thread mode) hsub, h⟩
  | terminate =>
      obtain ⟨cs, hsub, h⟩ := s.commanded_terminate
      exact ⟨cs, hone (Command.spares_of_concerns rfl) hsub, h⟩
  | disconnect =>
      obtain ⟨cs, hsub, h⟩ := s.commanded_disconnect
      exact ⟨cs, hone (Command.spares_of_concerns rfl) hsub, h⟩
  | addBreakpoint b =>
      obtain ⟨cs, hcs, h⟩ := s.commanded_addBreakpoint b
      exact ⟨cs, hset hcs, h⟩
  | removeBreakpoint b =>
      obtain ⟨cs, hcs, h⟩ := s.commanded_removeBreakpoint b
      exact ⟨cs, hset hcs, h⟩
  | setBreakpoint script b =>
      obtain ⟨cs, hsub, h⟩ := s.commanded_setBreakpoint script b
      exact ⟨cs, hone (Command.spares_setBreakpoint script b .add) hsub, h⟩
  | readVariables bindings thread slot =>
      exact ⟨[], by simp, s.commanded_readVariables bindings thread slot⟩

/-- Commands that are queued. -/
theorem Solitary.commanded (h : s.Solitary id) {cs : List Command} (hcs : ∀ c ∈ cs, c.Spares id)
    (hc : s.Commanded s' cs) (hr : s'.target.registry.Exact) : s'.Solitary id where
  exact := hr
  threads other hne := by
    have hsame := hc.target.standing h.exact.indexed other
    rw [Target.standing, Target.standing, h.threads other hne] at hsame
    exact Option.map_eq_none_iff.mp hsame
  events e he := by
    rw [hc.events] at he
    obtain he | he := List.mem_append.mp he
    · exact h.events e he
    · obtain ⟨c, hmem, rfl⟩ := List.mem_map.mp he
      exact hcs c hmem
  agenda := by
    rw [hc.worker]
    exact h.agenda

/-- **A call for the thread** brings no other. -/
theorem Solitary.call (h : s.Solitary id) {c : Call} (hc : c.concerns id = true) :
    (c.run s).Solitary id := by
  cases c with
  | report n =>
      obtain ⟨htarget, hworker, -, hqueue⟩ := s.notify_frame n
      refine ⟨?_, ?_, fun e he => ?_, ?_⟩
      · rw [Call.run, htarget]
        exact h.exact
      · rw [Call.run, htarget]
        exact h.threads
      · rw [Call.run] at he
        obtain hsame | hsame := hqueue
        · rw [hsame] at he
          exact h.events e he
        · rw [hsame] at he
          obtain he | he := List.mem_append.mp he
          · exact h.events e he
          · rw [List.mem_singleton.mp he]
            exact hc
      · rw [Call.run, hworker]
        exact h.agenda
  | abandonPause thread => exact ⟨h.exact, h.threads, h.events, h.agenda⟩
  | control c =>
      have hr := (s.rereads_call c).exact h.exact
      by_cases hcancel : c = .cancel
      · subst hcancel
        refine ⟨hr, h.threads, fun e he => h.events e ?_, h.agenda⟩
        have hsame : s.queue.cancel.events = s.queue.events := by
          unfold EventQueue.cancel
          split <;> rfl
        rwa [← hsame]
      · obtain ⟨cs, hcs, hcommanded⟩ := s.commanded_spares hc hcancel
        exact h.commanded hcs hcommanded hr

/-- **What is taken** spares the others, and so does what it leaves to do. -/
theorem Solitary.take (h : s.Solitary id) (htake : s.take? = some s') :
    s'.Solitary id ∧ ∀ e ∈ s.nextEvent?, e.Spares id := by
  have hr := (tells_take h.exact htake).1.exact
  obtain ⟨-, -, ⟨e, rest, hnext, -, hevents, rfl⟩ | ⟨hnext, -, rfl⟩⟩ := take?_next htake
  · have he : e.Spares id := h.events e (by rw [hevents]; exact List.mem_cons_self)
    have hrest : ∀ e ∈ rest, e.Spares id := fun e hmem =>
      h.events e (by rw [hevents]; exact List.mem_cons_of_mem _ hmem)
    refine ⟨⟨hr, ?_, ?_, ?_⟩, ?_⟩
    · rw [target_handle, targetAfter_withEvents]
      cases e with
      | notification n => exact (h.threads.handleNotification h.exact s.breakpoints he).2
      | command c => exact (h.threads.handleCommand h.exact he).2
    · rw [queue_handle]
      exact hrest
    · rw [agenda_handle, tasksAfter_withEvents]
      cases e with
      | notification n =>
          exact (h.threads.handleNotification h.exact s.breakpoints he).1.notificationTasks n
      | command c => exact (h.threads.handleCommand h.exact he).1.commandTasks he
    · rw [hnext]
      rintro other ⟨⟩
      exact he
  · refine ⟨⟨hr, h.threads, h.events, spares_closing _⟩, ?_⟩
    rw [hnext]
    rintro other ⟨⟩

/-- **What is done** spares the others. -/
theorem Solitary.perform (h : s.Solitary id) {task : Task} (hs : s.perform? = some (task, s')) :
    s'.Solitary id ∧ task.Spares id := by
  obtain ⟨rest, hagenda, rfl⟩ := perform?_cases hs
  have htask : task.Spares id := h.agenda task (by rw [hagenda]; exact List.mem_cons_self)
  refine ⟨⟨?_, ?_, fun e he => ?_, ?_⟩, htask⟩
  · rw [target_effect]
    exact h.exact
  · rw [target_effect]
    exact h.threads
  · cases task with
    | followUp c =>
        obtain ⟨cs, hsub, hc, -⟩ := (s.withAgenda rest).commanded_submit c
        rw [effect, hc.events] at he
        obtain he | he := List.mem_append.mp he
        · exact h.events e he
        · obtain ⟨other, hmem, rfl⟩ := List.mem_map.mp he
          rw [List.mem_singleton.mp (hsub hmem)]
          exact htask
    | closeQueue => cases he
    | release | releaseAll | callback | lastCallback | command | forward | closeGate | forwardClosed
    | announceClosed | finish => exact h.events e he
  · rw [agenda_effect]
    exact fun other hmem => h.agenda other (by rw [hagenda]; exact List.mem_cons_of_mem _ hmem)

end Session

end Pausepoint
