import Pausepoint.Proofs.Session.Proceedings
import Pausepoint.Proofs.Session.Tells

/-!
# Pausepoint.Proofs.Session.Mirror

The callbacks of a session tell all of it.

`callbacks_mirror` is the main result, for any order of reports, calls, pauses that are given up and
steps of the dispatcher, in which the listener itself does not fail, though a handler of commands may:

* between two events the picture that a listener has put together from its callbacks shows exactly the
  threads of the session, in their order, with their states, and how far the session is;
* a callback about the state of a thread is news, and is true when it is told;
* the handling of an event gives a thread another stack, or one frame more, if and only if it tells so.

The invariant `Mirrored` looks ahead: the picture, and what the agenda will still tell, make up the
target, which an event changes before anything is told.
-/

namespace Pausepoint

namespace Session

/-- The threads of a session in their order, with their states, and how far it is. -/
def view (s : Session) : Mirror :=
  { threads := s.target.registry.threads.toList.map fun t => (t.id, t.state), state := s.state }

/-- The picture that a listener has after some deeds. -/
def pictured (trace : List Deed) : Mirror :=
  Mirror.hearAll {} (heard trace)

theorem pictured_snoc (trace : List Deed) (deed : Deed) :
    pictured (trace ++ [deed]) = (pictured trace).hearAll deed.told?.toList := by
  rw [pictured, heard_snoc, Mirror.hearAll_append]
  rfl

/-- The listener never failed. -/
def NoListenerFails (trace : List Deed) : Prop :=
  ∀ c message, .failure (.callback c) message ∉ trace

theorem NoListenerFails.of_append {trace later : List Deed} (h : NoListenerFails (trace ++ later)) :
    NoListenerFails trace ∧ NoListenerFails later :=
  ⟨fun c message hmem => h c message (List.mem_append_left _ hmem),
    fun c message hmem => h c message (List.mem_append_right _ hmem)⟩

/-! ### Agendas -/

/-- Once a command is handled, nothing is told any more. -/
def CommandsLast : List Task → Prop
  | [] => True
  | task :: rest => ((∃ c, task = .command c) → toldBy rest = []) ∧ CommandsLast rest

theorem commandsLast_append {tasks later : List Task} (htasks : ∀ c, .command c ∉ tasks)
    (h : CommandsLast later) : CommandsLast (tasks ++ later) := by
  induction tasks with
  | nil => exact h
  | cons task rest ih =>
      refine ⟨?_, ih fun c hmem => htasks c (List.mem_cons_of_mem _ hmem)⟩
      rintro ⟨c, rfl⟩
      exact absurd List.mem_cons_self (htasks c)

theorem commandsLast_of_none {tasks : List Task} (h : ∀ c, .command c ∉ tasks) :
    CommandsLast tasks := by
  have happend := commandsLast_append h (show CommandsLast [] from trivial)
  rwa [List.append_nil] at happend

theorem commandsLast_closing (exit : Exit) : CommandsLast (closing exit) :=
  commandsLast_of_none fun c => by simp [closing]

/-- The tasks of an event tell first. -/
theorem commandsLast_tasksAfter (s : Session) (e : Event) : CommandsLast (s.tasksAfter e) := by
  cases e with
  | notification n =>
      refine commandsLast_of_none fun c => ?_
      unfold tasksAfter notificationTasks
      dsimp only
      split <;> simp [closing]
  | command c =>
      have hrelease : ∀ c', .command c' ∉ releaseTasks c := by
        intro c'
        cases c <;> simp [releaseTasks]
      unfold tasksAfter commandTasks
      dsimp only
      split
      · rw [List.append_assoc]
        refine commandsLast_append (fun c' => ?_) ?_
        · simp [hrelease]
        · refine ⟨fun _ => ?_, ?_⟩
          · split <;> rfl
          · refine commandsLast_of_none fun c' => ?_
            split <;> simp [closing]
      · exact commandsLast_of_none fun c' => by simp

/-- What a taken event tells is what happened to the target. -/
theorem tells_take {s s' : Session} (hr : s.target.registry.Exact) (h : s.take? = some s') :
    s.target.Tells s'.target (toldBy s'.worker.agenda) ∧ CommandsLast s'.worker.agenda := by
  obtain ⟨-, ⟨e, rest, -, rfl⟩ | ⟨-, rfl⟩⟩ := take?_cases h
  · rw [target_handle, agenda_handle, targetAfter_withEvents, tasksAfter_withEvents]
    refine ⟨?_, s.commandsLast_tasksAfter e⟩
    cases e with
    | notification n =>
        rw [tasksAfter, toldBy_notificationTasks]
        exact Target.tells_handleNotification hr s.breakpoints n
    | command c =>
        rw [tasksAfter, toldBy_commandTasks]
        exact Target.tells_handleCommand hr c
  · exact ⟨.refl hr, commandsLast_closing .cancelled⟩

/-- What is told of a failure is the end of the target. -/
theorem tells_fail {s : Session} (hr : s.target.registry.Exact) (message : String) :
    s.target.Tells (s.fail message).target (toldBy (s.fail message).worker.agenda) ∧
      CommandsLast (s.fail message).worker.agenda := by
  have htold : toldBy (s.fail message).worker.agenda =
      (s.target.terminate (some { event := s.worker.event, message })).1 := by
    unfold fail
    simp [toldBy_cons, Task.told?]
  rw [htold]
  refine ⟨Target.tells_terminate hr _, commandsLast_of_none fun c => ?_⟩
  unfold fail
  simp [closing]

/-! ### The invariant -/

/-- **The invariant**: what the listener knows and what it will be told make up the target. -/
structure Mirrored (trace : List Deed) (s : Session) : Prop where
  exact : s.target.registry.Exact
  view : (pictured trace).hearAll (toldBy s.worker.agenda) = s.target.view
  news : (pictured trace).News s.target (toldBy s.worker.agenda)
  commands : CommandsLast s.worker.agenda

theorem mirrored_create (settings : DebuggerSettings) : Mirrored [] (create settings) :=
  ⟨Registry.exact_empty, rfl, trivial, trivial⟩

namespace Mirrored

variable {trace : List Deed} {s s' : Session}

theorem outside (h : Mirrored trace s) (hs : Proceeds s .outside s') :
    Mirrored (trace ++ [.outside]) s' := by
  obtain ⟨ht, hw⟩ := hs.outside
  have hview : s'.target.view = s.target.view := by
    rw [Target.view, Target.view, ht.entries h.exact, ht.state]
  refine ⟨ht.exact h.exact, ?_, ?_, ?_⟩
  · rw [pictured_snoc, hw, hview]
    exact h.view
  · rw [pictured_snoc, hw]
    exact h.news.of_stateOf fun id => ht.stateOf h.exact id
  · rw [hw]
    exact h.commands

theorem take (h : Mirrored trace s) (hs : s.take? = some s') : Mirrored (trace ++ [.take]) s' := by
  have hidle := (take?_cases hs).1
  have hview : pictured trace = s.target.view := by
    have hview := h.view
    rwa [hidle] at hview
  obtain ⟨htells, hcommands⟩ := tells_take h.exact hs
  refine ⟨htells.exact, ?_, ?_, hcommands⟩
  · rw [pictured_snoc, hview]
    exact htells.view
  · rw [pictured_snoc, hview]
    exact htells.news

/-- A task that is done is heard, if it tells something. -/
theorem perform (h : Mirrored trace s) {task : Task} (hs : s.perform? = some (task, s'))
    {deed : Deed} (hdeed : deed.told? = task.told?) : Mirrored (trace ++ [deed]) s' := by
  obtain ⟨rest, hagenda, rfl⟩ := perform?_cases hs
  have hview := h.view
  have hnews := h.news
  have hcommands := h.commands
  rw [hagenda, toldBy_cons] at hview hnews
  rw [hagenda] at hcommands
  refine ⟨?_, ?_, ?_, ?_⟩
  · rw [target_effect]
    exact h.exact
  · rw [pictured_snoc, hdeed, target_effect, agenda_effect, agenda_withAgenda, ← Mirror.hearAll_append]
    exact hview
  · rw [pictured_snoc, hdeed, target_effect, agenda_effect, agenda_withAgenda]
    cases htold : task.told? with
    | none =>
        rw [htold] at hnews
        exact hnews
    | some c =>
        rw [htold] at hnews
        exact hnews.2
  · rw [agenda_effect, agenda_withAgenda]
    exact hcommands.2

/-- A handler of commands fails when all was told. -/
theorem fail (h : Mirrored trace s) {c : Command} (hs : s.perform? = some (.command c, s'))
    (message : String) : Mirrored (trace ++ [.failure (.command c) message]) (s'.fail message) := by
  have hdone := h.perform hs (show (Deed.failure (.command c) message).told? = _ from rfl)
  obtain ⟨rest, hagenda, rfl⟩ := perform?_cases hs
  have hcommands := h.commands
  rw [hagenda] at hcommands
  -- Commands come last, so that the picture is complete when a handler fails.
  have hview : pictured (trace ++ [.failure (.command c) message]) =
      ((s.withAgenda rest).effect (.command c)).target.view := by
    have hview := hdone.view
    rwa [agenda_effect, agenda_withAgenda, hcommands.1 ⟨c, rfl⟩] at hview
  obtain ⟨htells, hcommands'⟩ := tells_fail hdone.exact message
  refine ⟨htells.exact, ?_, ?_, hcommands'⟩
  · rw [hview]
    exact htells.view
  · rw [hview]
    exact htells.news

/-- **Every step keeps the invariant**, unless the listener fails. -/
theorem step (h : Mirrored trace s) {deed : Deed} (hs : Proceeds s deed s')
    (hdeed : ∀ c message, deed ≠ .failure (.callback c) message) : Mirrored (trace ++ [deed]) s' := by
  cases hs with
  | notify n => exact h.outside (.notify s n)
  | abandonPause thread => exact h.outside (.abandonPause s thread)
  | call c => exact h.outside (.call s c)
  | take hs => exact h.take hs
  | perform hs => exact h.perform hs rfl
  | @fail _ task hs hfatal message =>
      cases task with
      | command c => exact h.fail hs message
      | callback c => exact absurd rfl (hdeed c message)
      | release | releaseAll | followUp | forward | lastCallback | closeQueue | closeGate
      | forwardClosed | announceClosed | finish => cases hfatal

end Mirrored

theorem mirrored_of_execution {settings : DebuggerSettings} {trace : List Deed} {s : Session}
    (h : Execution Proceeds (create settings) trace s) (hlistener : NoListenerFails trace) :
    Mirrored trace s := by
  refine h.invariant (P := fun trace s => NoListenerFails trace → Mirrored trace s)
    (fun _ => mirrored_create settings) ?_ hlistener
  intro trace s deed s' _ ih hstep hlistener
  obtain ⟨hbefore, hlast⟩ := hlistener.of_append
  refine (ih hbefore).step hstep fun c message he => ?_
  exact hlast c message (List.mem_singleton.mpr he.symm)

/-! ### Stacks within one event -/

/-- While an event is handled, stacks stay as taking it has left them, and every callback about a stack
that is due is told. -/
structure Settling (taken : Session) (later : List Deed) (s : Session) : Prop where
  exact : s.target.registry.Exact
  commands : CommandsLast s.worker.agenda
  sheets : ∀ id, s.target.sheetsOf id = taken.target.sheetsOf id
  told : ∀ id, .stackFramesChanged id ∈ heard later ++ toldBy s.worker.agenda ↔
    .stackFramesChanged id ∈ toldBy taken.worker.agenda

theorem Settling.step {taken s s' : Session} {later : List Deed} (h : Settling taken later s)
    {deed : Deed} (hs : Proceeds s deed s') (htake : deed ≠ .take)
    (hdeed : ∀ c message, deed ≠ .failure (.callback c) message) :
    Settling taken (later ++ [deed]) s' := by
  have houtside (hs : Proceeds s .outside s') : Settling taken (later ++ [.outside]) s' := by
    obtain ⟨ht, hw⟩ := hs.outside
    refine ⟨ht.exact h.exact, hw ▸ h.commands, fun id => ?_, fun id => ?_⟩
    · rw [ht.sheets h.exact]
      exact h.sheets id
    · rw [heard_snoc, hw, ← h.told id]
      simp [Deed.told?]
  have hperform {task : Task} {next : Session} (hs : s.perform? = some (task, next)) {deed : Deed}
      (hdeed : deed.told? = task.told?) : Settling taken (later ++ [deed]) next := by
    obtain ⟨rest, hagenda, rfl⟩ := perform?_cases hs
    have hcommands := h.commands
    rw [hagenda] at hcommands
    refine ⟨?_, ?_, fun id => ?_, fun id => ?_⟩
    · rw [target_effect]
      exact h.exact
    · rw [agenda_effect, agenda_withAgenda]
      exact hcommands.2
    · rw [target_effect]
      exact h.sheets id
    · rw [heard_snoc, hdeed, agenda_effect, agenda_withAgenda, List.append_assoc, ← toldBy_cons,
        ← hagenda]
      exact h.told id
  cases hs with
  | notify n => exact houtside (.notify s n)
  | abandonPause thread => exact houtside (.abandonPause s thread)
  | call c => exact houtside (.call s c)
  | take => exact absurd rfl htake
  | perform hs => exact hperform hs rfl
  | @fail next task hs hfatal message =>
      cases task with
      | command c =>
          have hdone := hperform hs (show (Deed.failure (.command c) message).told? = _ from rfl)
          obtain ⟨rest, hagenda, rfl⟩ := perform?_cases hs
          have hcommands := h.commands
          rw [hagenda] at hcommands
          obtain ⟨htells, hcommands'⟩ := tells_fail hdone.exact message
          -- Nothing was left to tell, and the end of the session tells nothing of stacks.
          have hrest : toldBy rest = [] := hcommands.1 ⟨c, rfl⟩
          have hnot (id) : .stackFramesChanged id ∉
              toldBy (((s.withAgenda rest).effect (.command c)).fail message).worker.agenda := by
            unfold Session.fail
            simpa [toldBy_cons, Task.told?] using
              Target.stackFramesChanged_not_mem_terminate _ _ id
          refine ⟨htells.exact, hcommands', fun id => ?_, fun id => ?_⟩
          · rw [(htells.stacked id).2 (hnot id)]
            exact hdone.sheets id
          · rw [← hdone.told id, agenda_effect, agenda_withAgenda, hrest, List.append_nil,
              List.mem_append, or_iff_left (hnot id)]
      | callback c => exact absurd rfl (hdeed c message)
      | release | releaseAll | followUp | forward | lastCallback | closeQueue | closeGate
      | forwardClosed | announceClosed | finish => cases hfatal

/-! ### The main result -/

/-- **The callbacks of a session tell all of it.** Whatever is reported, called and given up, and however
far the dispatcher is with it, as long as the listener does not fail:

* when the dispatcher has done all that an event asked for, the picture of the listener shows the
  threads of the session, in their order and with their states, and how far the session is;
* when the listener is told of the state of a thread, its picture showed another state, and the thread
  is in the state that it is told;
* when an event is taken, and later all that it asked for is done, exactly the threads that the listener
  was told of on the way have another stack, or one frame more. -/
theorem callbacks_mirror {settings : DebuggerSettings} {trace : List Deed} {s : Session}
    (h : Execution Proceeds (create settings) trace s) (hlistener : NoListenerFails trace) :
    (s.worker.agenda = [] → pictured trace = s.view) ∧
    (∀ task rest id state, s.worker.agenda = task :: rest →
      task.told? = some (.threadStateChanged id state) →
        (∃ previous, (pictured trace).stateOf id = some previous ∧ previous ≠ state) ∧
          s.threadState id = .ok state) ∧
    ∀ taken later s', s.take? = some taken → Execution Proceeds taken later s' →
      .take ∉ later → NoListenerFails later → s'.worker.agenda = [] →
        ∀ id, (.stackFramesChanged id ∈ heard later →
            Restacked (s.target.sheetsOf id) (s'.target.sheetsOf id)) ∧
          (.stackFramesChanged id ∉ heard later → s'.target.sheetsOf id = s.target.sheetsOf id) := by
  have hm := mirrored_of_execution h hlistener
  refine ⟨fun hidle => ?_, fun task rest id state hagenda htold => ?_, ?_⟩
  · have hview := hm.view
    rwa [hidle] at hview
  · have hnews := hm.news
    rw [hagenda, toldBy_cons, htold] at hnews
    obtain ⟨hprevious, hstate⟩ := hnews.1 id state rfl
    obtain ⟨thread, hthread, rfl⟩ := Target.exists_thread_of_stateOf hstate
    exact ⟨hprevious, by rw [threadState, hthread]⟩
  · intro taken later s' htake hlater hnotake hnofail hidle id
    obtain ⟨htells, hcommands⟩ := tells_take hm.exact htake
    -- From the event on until the agenda is done, nothing else is taken and nobody fails.
    have hsettling : Settling taken later s' := by
      refine hlater.invariant
        (P := fun later s => .take ∉ later → NoListenerFails later → Settling taken later s)
        (fun _ _ => ⟨htells.exact, hcommands, fun _ => rfl, fun _ => Iff.rfl⟩) ?_ hnotake hnofail
      intro later s deed s' _ ih hstep hnotake hnofail
      obtain ⟨hbefore, hlast⟩ := hnofail.of_append
      refine (ih (fun hmem => hnotake (List.mem_append_left _ hmem)) hbefore).step hstep ?_ ?_
      · rintro rfl
        exact hnotake (by simp)
      · rintro c message rfl
        exact hlast c message List.mem_cons_self
    have hmem := hsettling.told id
    rw [hidle, toldBy_nil, List.append_nil] at hmem
    rw [hmem, hsettling.sheets id]
    exact htells.stacked id

/-- The listener knows of the thread, and that it goes on. -/
theorem callbacks_mirror_greeted : ∃ trace, Execution Proceeds (create {}) trace greeted ∧
    NoListenerFails trace ∧ pictured trace = { threads := [(⟨1⟩, .resumed)], state := .running } := by
  obtain ⟨trace, hgreeted, hnone⟩ := execution_greeted
  have hlistener : NoListenerFails trace := fun c message => hnone (.callback c) message
  refine ⟨trace, hgreeted, hlistener, ?_⟩
  exact ((callbacks_mirror hgreeted hlistener).1 (by decide +kernel)).trans (by decide +kernel)

end Session

end Pausepoint
