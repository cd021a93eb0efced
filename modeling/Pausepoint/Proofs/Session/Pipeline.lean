import Pausepoint.Proofs.Session.EndsNothing

/-!
# Pausepoint.Proofs.Session.Pipeline

Commands on their way to the engine.

A command is passed on to the engine at the end of its handling. Until then it is in one of three
places: on the agenda as a task that passes it on, in the queue, or on the agenda as a follow-up that is
still to be queued. The engine gets them in this order, so that `Session.pipeline` puts the three
behind each other:

* reports leave the pipeline alone, and a report that is dispatched adds its follow-ups at the end;
* a command that is dispatched stays in front if it is delivered, and is dropped otherwise;
* a follow-up that is queued stays where it is, unless an equal command waits in front of it.
-/

namespace Pausepoint

/-- The command that a task passes on to the engine. -/
def Task.forwarded? : Task → Option Command
  | .forward c => some c
  | _ => none

/-- The command that a task queues. -/
def Task.followUp? : Task → Option Command
  | .followUp c => some c
  | _ => none

/-- The command that an event is, if it is one. -/
def Event.command? : Event → Option Command
  | .command c => some c
  | .notification _ => none

/-- The commands among some events. -/
def commandsOf (events : List Event) : List Command :=
  events.filterMap Event.command?

@[simp] theorem commandsOf_nil : commandsOf [] = [] := rfl

@[simp] theorem commandsOf_append (events later : List Event) :
    commandsOf (events ++ later) = commandsOf events ++ commandsOf later :=
  List.filterMap_append

@[simp] theorem commandsOf_cons_command (c : Command) (events : List Event) :
    commandsOf (.command c :: events) = c :: commandsOf events := rfl

@[simp] theorem commandsOf_cons_notification (n : Notification) (events : List Event) :
    commandsOf (.notification n :: events) = commandsOf events := rfl

@[simp] theorem commandsOf_commands (cs : List Command) : commandsOf (cs.map .command) = cs := by
  induction cs with
  | nil => rfl
  | cons c cs ih => rw [List.map_cons, commandsOf_cons_command, ih]

theorem mem_commandsOf {c : Command} {events : List Event} :
    c ∈ commandsOf events ↔ .command c ∈ events := by
  induction events with
  | nil => simp
  | cons e rest ih => cases e <;> simp [ih]

namespace Session

/-- The commands that the dispatcher will pass on to the engine before its next event. -/
def forwards (s : Session) : List Command :=
  s.worker.agenda.filterMap Task.forwarded?

/-- The commands that the dispatcher will queue before its next event. -/
def following (s : Session) : List Command :=
  s.worker.agenda.filterMap Task.followUp?

/-- All commands on their way to the engine, in the order in which it will get them. -/
def pipeline (s : Session) : List Command :=
  s.forwards ++ commandsOf s.queue.events ++ s.following

/-- A decision on a thread is on its way from the target to the engine. -/
def Handing (s : Session) (thread : ThreadId) : Prop :=
  ∃ mode, .resume thread mode ∈ s.forwards

/-- A decision on a thread is queued, or will be before the next event. -/
def Resuming (s : Session) (thread : ThreadId) : Prop :=
  ∃ mode, .command (.resume thread mode) ∈ s.queue.events ∨
    .followUp (.resume thread mode) ∈ s.worker.agenda

theorem mem_following {s : Session} {c : Command} :
    c ∈ s.following ↔ .followUp c ∈ s.worker.agenda := by
  unfold following
  rw [List.mem_filterMap]
  constructor
  · intro ⟨task, htask, hc⟩
    cases task with
    | followUp c' =>
        obtain rfl := Option.some.inj hc
        exact htask
    | release | releaseAll | callback | command | forward | lastCallback | closeQueue | closeGate
    | forwardClosed | announceClosed | finish => cases hc
  · intro h
    exact ⟨_, h, rfl⟩

theorem forwards_of_idle {s : Session} (h : s.worker.agenda = []) : s.forwards = [] := by
  rw [forwards, h]
  rfl

theorem following_of_idle {s : Session} (h : s.worker.agenda = []) : s.following = [] := by
  rw [following, h]
  rfl

theorem pipeline_of_idle {s : Session} (h : s.worker.agenda = []) :
    s.pipeline = commandsOf s.queue.events := by
  rw [pipeline, forwards_of_idle h, following_of_idle h, List.nil_append, List.append_nil]

theorem handing_of_forwards {s : Session} (h : s.forwards = []) (thread : ThreadId) :
    ¬ s.Handing thread := by
  rintro ⟨mode, hmode⟩
  rw [h] at hmode
  cases hmode

/-- A decision on its way stands on the agenda. -/
theorem handing_of_worker {s s' : Session} (h : s'.worker = s.worker) (thread : ThreadId) :
    s'.Handing thread = s.Handing thread := by
  unfold Handing forwards
  rw [h]

/-! ### What events leave on the agenda -/

section

variable (callbacks : List Callback) (followUps : List Command)

theorem forwarded_effects :
    (callbacks.map Task.callback ++ followUps.map Task.followUp).filterMap Task.forwarded? = [] := by
  simp [List.filterMap_append, List.filterMap_map, Function.comp_def, Task.forwarded?]

theorem followUps_effects :
    (callbacks.map Task.callback ++ followUps.map Task.followUp).filterMap Task.followUp? =
      followUps := by
  rw [List.filterMap_append, List.filterMap_map, List.filterMap_map]
  have hnone : callbacks.filterMap (Task.followUp? ∘ Task.callback) = [] := by
    simp [Function.comp_def, Task.followUp?]
  have hsome : followUps.filterMap (Task.followUp? ∘ Task.followUp) = followUps :=
    List.filterMap_some
  rw [hnone, hsome, List.nil_append]

end

/-- A report passes nothing on. -/
theorem forwarded_notificationTasks (n : Notification) (effects : Effects) :
    (notificationTasks n effects).filterMap Task.forwarded? = [] := by
  unfold notificationTasks
  rw [List.filterMap_append, forwarded_effects]
  split <;> rfl

/-- A report queues what follows it. -/
theorem followUps_notificationTasks (n : Notification) (effects : Effects) :
    (notificationTasks n effects).filterMap Task.followUp? = effects.followUps := by
  unfold notificationTasks
  rw [List.filterMap_append, followUps_effects]
  split <;> exact List.append_nil _

/-- A command is passed on if it is delivered. -/
theorem forwarded_commandTasks (c : Command) (effects : Effects) :
    (commandTasks c effects).filterMap Task.forwarded? = if effects.deliver then [c] else [] := by
  unfold commandTasks
  split
  · have hrelease : (releaseTasks c).filterMap Task.forwarded? = [] := by
      cases c <;> simp [releaseTasks, Task.forwarded?]
    rw [List.append_assoc (releaseTasks c), List.filterMap_append, List.filterMap_append,
      List.filterMap_append, hrelease, forwarded_effects]
    split <;> rfl
  · exact forwarded_effects _ _

theorem followUps_commandTasks (c : Command) (effects : Effects) :
    (commandTasks c effects).filterMap Task.followUp? = effects.followUps := by
  unfold commandTasks
  split
  · have hrelease : (releaseTasks c).filterMap Task.followUp? = [] := by
      cases c <;> simp [releaseTasks, Task.followUp?]
    rw [List.append_assoc (releaseTasks c), List.filterMap_append, List.filterMap_append,
      List.filterMap_append, hrelease, followUps_effects, List.nil_append]
    have hlast : [Task.command c, .forward c].filterMap Task.followUp? = [] := rfl
    rw [hlast, List.append_nil]
    split <;> exact List.append_nil _
  · exact followUps_effects _ _

/-- What is passed on after an event: the event itself, if it is a command that is delivered. -/
theorem forwards_handle (s : Session) (rest : List Event) (e : Event) :
    ((s.withEvents rest).handle e).forwards = [] ∨
      ∃ c, e = .command c ∧ (s.target.handleCommand c).1.deliver = true ∧
        ((s.withEvents rest).handle e).forwards = [c] := by
  rw [forwards, agenda_handle, tasksAfter_withEvents]
  cases e with
  | notification n => exact .inl (forwarded_notificationTasks n _)
  | command c =>
      rw [tasksAfter, forwarded_commandTasks]
      cases hd : (s.target.handleCommand c).1.deliver with
      | false => exact .inl rfl
      | true => exact .inr ⟨c, rfl, hd, rfl⟩

/-! ### Tasks -/

/-- What is passed on before and after a task. -/
theorem forwards_perform {s s' : Session} {task : Task} (hs : s.perform? = some (task, s')) :
    s.forwards = task.forwarded?.toList ++ s'.forwards := by
  obtain ⟨rest, hagenda, rfl⟩ := perform?_cases hs
  rw [forwards, forwards, hagenda, agenda_effect, agenda_withAgenda, List.filterMap_cons]
  cases task.forwarded? <;> rfl

theorem following_perform {s s' : Session} {task : Task} (hs : s.perform? = some (task, s')) :
    s.following = task.followUp?.toList ++ s'.following := by
  obtain ⟨rest, hagenda, rfl⟩ := perform?_cases hs
  rw [following, following, hagenda, agenda_effect, agenda_withAgenda, List.filterMap_cons]
  cases task.followUp? <;> rfl

/-- A decision that is passed on is the only command that is. -/
theorem handing_of_forward {s s' : Session} {c : Command} (hs : s.perform? = some (.forward c, s'))
    (hshort : s.forwards.length ≤ 1) (thread : ThreadId) :
    ¬ s'.Handing thread ∧ (s.Handing thread ↔ ∃ mode, c = .resume thread mode) := by
  have hsplit := forwards_perform hs
  have hnil : s'.forwards = [] := by
    rw [hsplit] at hshort
    simpa [Task.forwarded?] using hshort
  refine ⟨handing_of_forwards hnil thread, ?_⟩
  unfold Handing
  rw [hsplit, hnil]
  simp [Task.forwarded?, eq_comm]

/-- What is left of the agenda after a task that passes nothing on. -/
theorem handing_of_quiet {s s' : Session} {task : Task} (hs : s.perform? = some (task, s'))
    (hquiet : task.forwarded? = none) (thread : ThreadId) :
    s'.Handing thread ↔ s.Handing thread := by
  unfold Handing
  rw [forwards_perform hs, hquiet]
  rfl

/-- No task sets a breakpoint. -/
theorem breakpoints_effect (s : Session) (task : Task) :
    (s.effect task).breakpoints = s.breakpoints := by
  cases task with
  | followUp c =>
      unfold effect submit
      dsimp only
      split <;> rfl
  | release | releaseAll | callback | command | forward | lastCallback | closeQueue | closeGate
  | forwardClosed | announceClosed | finish => rfl

/-- A list without an element that stands further in front, too. -/
def Thins (cs ds : List Command) : Prop :=
  ∃ before c after, cs = before ++ c :: after ∧ ds = before ++ after ∧ c ∈ before

theorem Thins.ne_nil {cs ds : List Command} (h : Thins cs ds) : cs ≠ [] := by
  obtain ⟨before, c, after, rfl, -, -⟩ := h
  simp

/-- The last one stays if it stands nowhere else. -/
theorem Thins.of_snoc {cs ds : List Command} {last : Command} (h : Thins (cs ++ [last]) ds)
    (hlast : last ∉ cs) : ∃ cs', ds = cs' ++ [last] ∧ Thins cs cs' := by
  obtain ⟨before, c, after, hcs, rfl, hc⟩ := h
  rcases List.eq_nil_or_concat after with rfl | ⟨rest, d, rfl⟩
  · obtain ⟨rfl, hd⟩ := List.append_inj' hcs rfl
    obtain rfl := List.singleton_inj.mp hd
    exact absurd hc hlast
  · rw [List.concat_eq_append, ← List.cons_append, ← List.append_assoc] at hcs
    obtain ⟨rfl, hd⟩ := List.append_inj' hcs rfl
    obtain rfl := List.singleton_inj.mp hd
    refine ⟨before ++ rest, ?_, before, c, rest, rfl, rfl, hc⟩
    rw [List.concat_eq_append, List.append_assoc]

/-- **What a task does to the pipeline**: the command in front leaves it to be passed on, or nothing
happens, unless a follow-up waits already. -/
theorem pipeline_perform {s s' : Session} {task : Task} (hopen : s.queue.closed = false)
    (hmild : task.IsMild) (hs : s.perform? = some (task, s')) :
    s.pipeline = task.forwarded?.toList ++ s'.pipeline ∨
      (∃ c, task = .followUp c) ∧ Thins s.pipeline s'.pipeline := by
  have hforwards := forwards_perform hs
  have hfollowing := following_perform hs
  obtain ⟨rest, -, hs'⟩ := perform?_cases hs
  unfold pipeline
  rw [hforwards, hfollowing]
  cases task with
  | forward | release | callback | command =>
      left
      rw [hs']
      simp only [Task.forwarded?, Task.followUp?, Option.toList_none, Option.toList_some,
        List.nil_append, List.append_assoc]
      rfl
  | followUp c =>
      simp only [Task.forwarded?, Task.followUp?, Option.toList_none, Option.toList_some,
        List.nil_append]
      have hopen' : (s.withAgenda rest).queue.closed = false := hopen
      rcases submit_cases hopen' c with ⟨-, hmem, hsame⟩ | hmore
      · have hevents : s'.queue.events = s.queue.events := by
          rw [hs', effect, hsame]
          rfl
        rw [hevents]
        exact .inr ⟨⟨c, rfl⟩, _, c, _, rfl, rfl, List.mem_append_right _ (mem_commandsOf.mpr hmem)⟩
      · have hevents : s'.queue.events = s.queue.events ++ [.command c] := by
          rw [hs', effect, hmore]
          rfl
        left
        rw [hevents, commandsOf_append, commandsOf_cons_command, commandsOf_nil]
        simp only [List.append_assoc, List.singleton_append]
  | releaseAll | lastCallback | closeQueue | closeGate | forwardClosed | announceClosed | finish =>
      exact hmild.elim

/-! ### Reports, events and calls -/

/-- A report is no command. -/
theorem pipeline_notify (s : Session) (n : Notification) :
    (s.notify n).2.pipeline = s.pipeline ∧ (s.notify n).2.following = s.following := by
  obtain ⟨-, hworker, -, hqueue⟩ := notify_frame s n
  have hcommands : commandsOf (s.notify n).2.queue.events = commandsOf s.queue.events := by
    rcases hqueue with hqueue | hqueue
    · rw [hqueue]
    · rw [hqueue, commandsOf_append, commandsOf_cons_notification, commandsOf_nil, List.append_nil]
  unfold pipeline following forwards
  rw [hworker, hcommands]
  exact ⟨rfl, rfl⟩

/-- A report that is dispatched brings its follow-ups. -/
theorem pipeline_report {s : Session} (hidle : s.worker.agenda = []) {n : Notification}
    {rest : List Event} (hevents : s.queue.events = .notification n :: rest) :
    ((s.withEvents rest).handle (.notification n)).pipeline =
        s.pipeline ++ (s.target.handleNotification s.breakpoints n).1.followUps ∧
      ((s.withEvents rest).handle (.notification n)).following =
        (s.target.handleNotification s.breakpoints n).1.followUps := by
  have hfollowing : ((s.withEvents rest).handle (.notification n)).following =
      (s.target.handleNotification s.breakpoints n).1.followUps := by
    rw [following, agenda_handle, tasksAfter_withEvents]
    exact followUps_notificationTasks n _
  have hforwards : ((s.withEvents rest).handle (.notification n)).forwards = [] := by
    rw [forwards, agenda_handle, tasksAfter_withEvents]
    exact forwarded_notificationTasks n _
  refine ⟨?_, hfollowing⟩
  rw [pipeline_of_idle hidle, hevents, pipeline, hforwards, hfollowing, queue_handle,
    events_withEvents]
  rfl

/-- A command that is dispatched stays in front if it is delivered. -/
theorem pipeline_command {s : Session} (hidle : s.worker.agenda = []) {c : Command}
    {rest : List Event} (hevents : s.queue.events = .command c :: rest) :
    s.pipeline = c :: commandsOf rest ∧
      ((s.withEvents rest).handle (.command c)).pipeline =
        (if (s.target.handleCommand c).1.deliver then [c] else []) ++ commandsOf rest ∧
      ((s.withEvents rest).handle (.command c)).following = [] := by
  have hfollowing : ((s.withEvents rest).handle (.command c)).following = [] := by
    rw [following, agenda_handle, tasksAfter_withEvents, tasksAfter, followUps_commandTasks]
    exact Target.followUps_handleCommand s.target c
  refine ⟨?_, ?_, hfollowing⟩
  · rw [pipeline_of_idle hidle, hevents, commandsOf_cons_command]
  · rw [pipeline, hfollowing, List.append_nil, forwards, agenda_handle, tasksAfter_withEvents,
      tasksAfter, forwarded_commandTasks, queue_handle, events_withEvents]

/-- Commands that are ordered wait behind the others and in front of those that follow. -/
theorem Commanded.pipeline_split {s s' : Session} {cs : List Command} (h : s.Commanded s' cs) :
    s'.pipeline = s.forwards ++ commandsOf s.queue.events ++ (cs ++ s.following) := by
  have hsame : s'.following = s.following ∧ s'.forwards = s.forwards := by
    unfold following forwards
    rw [h.worker]
    exact ⟨rfl, rfl⟩
  rw [Session.pipeline, hsame.1, hsame.2, h.events, commandsOf_append, commandsOf_commands]
  simp only [List.append_assoc]

end Session

end Pausepoint
