import Pausepoint.Proofs.Session.Concord

/-!
# Pausepoint.Proofs.Session.EndsNothing

Sessions that nobody is about to end.

A session is at peace while nothing in its queue or on its agenda ends anything. Unlike
`Session.Concord` this asks nothing of threads, so that it survives pauses that were given up; and it
is enough for the gate to decide alone about a report (`Session.Peaceful.accepted`).
-/

namespace Pausepoint

/-- A command that ends nothing. -/
def Command.IsMild : Command → Prop
  | .resume .. | .setBreakpoint .. => True
  | .terminate | .disconnect => False

theorem Command.IsMild.ends_nothing {c : Command} (h : c.IsMild) : c ≠ .terminate ∧ c ≠ .disconnect := by
  constructor
  · rintro rfl
    exact h
  · rintro rfl
    exact h

/-- An event that ends nothing. -/
def Event.IsMild : Event → Prop
  | .notification n => n ≠ .engineTerminated
  | .command c => c.IsMild

/-- A task that ends nothing. -/
def Task.IsMild : Task → Prop
  | .release _ | .callback _ => True
  | .followUp c | .command c | .forward c => c.IsMild
  | .releaseAll | .lastCallback _ | .closeQueue | .closeGate | .forwardClosed | .announceClosed
  | .finish _ => False

/-- A call that ends nothing. -/
def ControlCall.IsMild : ControlCall → Prop
  | .terminate | .disconnect | .cancel => False
  | .resume .. | .resumeAll | .addBreakpoint _ | .removeBreakpoint _ | .setBreakpoint ..
  | .readVariables .. => True

/-! ### What events leave behind -/

namespace Target

/-- A script that was loaded brings its breakpoints and a decision. -/
theorem followUps_scriptReady (t : Target) (store : BreakpointStore) (id : ThreadId)
    (script : Snapshot) (root : Bool) :
    (t.scriptReady store id script root).1.followUps ⊆
      installCommands store script ++ [.resume id (t.modeFor root)] := by
  unfold scriptReady
  dsimp only
  split
  · split
    · split <;> exact List.Subset.refl _
    · exact List.subset_append_right _ _
  · exact List.nil_subset _

/-- Nothing else brings anything. -/
theorem followUps_of_ne (t : Target) (store : BreakpointStore) {n : Notification}
    (hn : ∀ id script root, n ≠ .scriptReady id script root) :
    (t.handleNotification store n).1.followUps = [] := by
  unfold handleNotification
  split
  · rfl
  · rfl
  · rfl
  · rfl
  · rfl
  · exact absurd rfl (hn _ _ _)
  · unfold stackFrames
    split <;> rfl
  · unfold suspended
    split
    · dsimp only
      split <;> rfl
    · rfl
  · unfold resumed
    split
    · rfl
    · split <;> rfl

theorem mild_installCommands {store : BreakpointStore} {script : Snapshot} {c : Command}
    (h : c ∈ installCommands store script) : c.IsMild := by
  unfold installCommands at h
  split at h
  · obtain ⟨b, -, rfl⟩ := List.mem_map.mp h
    trivial
  · cases h

/-- What follows an event by itself ends nothing. -/
theorem mild_followUps (t : Target) (store : BreakpointStore) (n : Notification) :
    ∀ c ∈ (t.handleNotification store n).1.followUps, c.IsMild := by
  intro c hc
  by_cases hload : ∃ id script root, n = .scriptReady id script root
  · obtain ⟨id, script, root, rfl⟩ := hload
    cases hstate : t.state with
    | notStarted | terminated =>
        simp only [handleNotification, hstate] at hc
        cases hc
    | running =>
        simp only [handleNotification, hstate] at hc
        rcases List.mem_append.mp (followUps_scriptReady _ _ _ _ _ hc) with hinstall | hresume
        · exact mild_installCommands hinstall
        · obtain rfl := List.mem_singleton.mp hresume
          trivial
  · have hne (id script root) : n ≠ .scriptReady id script root :=
      fun he => hload ⟨id, script, root, he⟩
    rw [followUps_of_ne t store hne] at hc
    cases hc

end Target

namespace Session

/-- **An event that ends nothing leaves nothing that ends anything.** -/
theorem mild_tasksAfter (s : Session) {e : Event} (he : e.IsMild) :
    ∀ task ∈ s.tasksAfter e, task.IsMild := by
  intro task htask
  cases e with
  | notification n =>
      have hne : n ≠ .engineTerminated := he
      simp only [tasksAfter, notificationTasks, if_neg hne, List.append_nil, List.mem_append,
        List.mem_map] at htask
      rcases htask with ⟨c, -, rfl⟩ | ⟨c, hc, rfl⟩
      · trivial
      · exact Target.mild_followUps s.target s.breakpoints n c hc
  | command c =>
      have hmild : c.IsMild := he
      have hne : c ≠ .disconnect := by
        rintro rfl
        exact hmild
      have hrelease : ∀ task ∈ releaseTasks c, task.IsMild := by
        cases c with
        | resume id mode =>
            intro task htask
            obtain rfl := List.mem_singleton.mp htask
            trivial
        | setBreakpoint =>
            intro task htask
            exact absurd htask List.not_mem_nil
        | terminate | disconnect => exact hmild.elim
      unfold tasksAfter commandTasks at htask
      dsimp only at htask
      rw [Target.followUps_handleCommand, if_neg hne] at htask
      split at htask
      · simp only [List.map_nil, List.append_nil, List.mem_append, List.mem_map, List.mem_cons,
          List.not_mem_nil, or_false] at htask
        rcases htask with (hmem | ⟨c', -, rfl⟩) | rfl | rfl
        · exact hrelease task hmem
        · trivial
        · exact hmild
        · exact hmild
      · simp only [List.map_nil, List.append_nil, List.mem_map] at htask
        obtain ⟨c', -, rfl⟩ := htask
        trivial

/-! ### The invariant -/

/-- **The invariant**: nothing is closed, and nothing on its way ends anything. -/
structure Peaceful (s : Session) : Prop where
  queue_open : s.queue.closed = false
  uncancelled : s.queue.cancelled = false
  gate_open : s.gate.closed = false
  events : ∀ e ∈ s.queue.events, e.IsMild
  agenda : ∀ task ∈ s.worker.agenda, task.IsMild

theorem peaceful_create (settings : DebuggerSettings) : (create settings).Peaceful where
  queue_open := rfl
  uncancelled := rfl
  gate_open := rfl
  events := nofun
  agenda := nofun

namespace Peaceful

variable {s s' : Session}

/-- **What the gate admits is accepted.** -/
theorem accepted (h : s.Peaceful) {n : Notification} {gate : Gate} (hgate : s.gate.accept n = .ok gate) :
    (s.notify n).1 = .ok () ∧ (s.notify n).2.gate = gate := by
  obtain ⟨cause, herror, -⟩ | ⟨gate', hok, hn | ⟨-, hn⟩⟩ := notify_cases h.queue_open n
  · rw [hgate] at herror
    cases herror
  · cases hgate.symm.trans hok
    rw [hn]
    exact ⟨rfl, rfl⟩
  · cases hgate.symm.trans hok
    rw [hn]
    exact ⟨rfl, rfl⟩

theorem notify (h : s.Peaceful) {n : Notification} (hn : n ≠ .engineTerminated) :
    (s.notify n).2.Peaceful := by
  obtain ⟨cause, -, he⟩ | ⟨gate, hgate, he | ⟨-, he⟩⟩ := notify_cases h.queue_open n
  · rw [he]
    exact h
  · rw [he]
    have hopen : gate.closed = false := (Gate.closed_of_accept hgate).2
    refine ⟨h.queue_open, h.uncancelled, hopen, fun e hmem => ?_, h.agenda⟩
    rcases List.mem_append.mp hmem with hmem | hmem
    · exact h.events e hmem
    · obtain rfl := List.mem_singleton.mp hmem
      exact hn
  · rw [he]
    have hopen : gate.closed = false := (Gate.closed_of_accept hgate).2
    exact ⟨h.queue_open, h.uncancelled, hopen, h.events, h.agenda⟩

theorem abandonPause (h : s.Peaceful) (thread : ThreadId) : (s.abandonPause thread).2.Peaceful :=
  ⟨h.queue_open, h.uncancelled, h.gate_open, h.events, h.agenda⟩

theorem commanded (h : s.Peaceful) {cs : List Command} (hc : s.Commanded s' cs)
    (hmild : ∀ c ∈ cs, c.IsMild) : s'.Peaceful := by
  refine ⟨?_, ?_, ?_, ?_, ?_⟩
  · rw [hc.queue]
    exact h.queue_open
  · rw [hc.queue]
    exact h.uncancelled
  · rw [hc.gate]
    exact h.gate_open
  · rw [hc.events]
    intro e hmem
    rcases List.mem_append.mp hmem with hmem | hmem
    · exact h.events e hmem
    · obtain ⟨c, hcs, rfl⟩ := List.mem_map.mp hmem
      exact hmild c hcs
  · rw [hc.worker]
    exact h.agenda

theorem take (h : s.Peaceful) (hs : s.take? = some s') : s'.Peaceful := by
  obtain ⟨-, e, rest, hevents, rfl⟩ := take?_open h.queue_open h.uncancelled hs
  have hmild := h.events
  rw [hevents] at hmild
  rw [handle_eq, tasksAfter_withEvents]
  exact
    { queue_open := h.queue_open
      uncancelled := h.uncancelled
      gate_open := h.gate_open
      events := fun e he => hmild e (List.mem_cons_of_mem _ he)
      agenda := s.mild_tasksAfter (hmild e List.mem_cons_self) }

theorem perform (h : s.Peaceful) {task : Task} (hs : s.perform? = some (task, s')) : s'.Peaceful := by
  obtain ⟨rest, hagenda, rfl⟩ := perform?_cases hs
  have hmild := h.agenda
  rw [hagenda] at hmild
  have htask : task.IsMild := hmild task List.mem_cons_self
  have hrest : (s.withAgenda rest).Peaceful :=
    ⟨h.queue_open, h.uncancelled, h.gate_open, h.events, fun other hmem =>
      hmild other (List.mem_cons_of_mem _ hmem)⟩
  cases task with
  | callback | command | forward => exact hrest
  | release thread =>
      exact ⟨hrest.queue_open, hrest.uncancelled, hrest.gate_open, hrest.events, hrest.agenda⟩
  | followUp c =>
      obtain ⟨cs, hcs, hc, -⟩ := (s.withAgenda rest).commanded_submit c
      refine hrest.commanded hc fun c' hc' => ?_
      obtain rfl := List.mem_singleton.mp (hcs hc')
      exact htask
  | releaseAll | lastCallback | closeQueue | closeGate | forwardClosed | announceClosed | finish =>
      exact htask.elim

end Peaceful

end Session

/-- A call that ends nothing queues commands that end nothing. -/
theorem ControlCall.mild_commanded (s : Session) {c : ControlCall} (hc : c.IsMild) :
    ∃ cs : List Command, (∀ c' ∈ cs, c'.IsMild) ∧ s.Commanded (c.run s) cs := by
  have hmild {cs : List Command}
      (h : ∀ c ∈ cs, ∃ script b action, c = .setBreakpoint script b action) : ∀ c ∈ cs, c.IsMild := by
    intro c hmem
    obtain ⟨script, b, action, rfl⟩ := h c hmem
    trivial
  cases c with
  | resume id mode =>
      obtain ⟨cs, hcs, h⟩ := s.commanded_resume id mode
      refine ⟨cs, fun c hmem => ?_, h⟩
      obtain rfl := List.mem_singleton.mp (hcs hmem)
      trivial
  | resumeAll =>
      obtain ⟨cs, hcs, h⟩ := s.commanded_resumeAll
      refine ⟨cs, fun c hmem => ?_, h⟩
      obtain ⟨id, rfl⟩ := hcs c hmem
      trivial
  | addBreakpoint b =>
      obtain ⟨cs, hcs, h⟩ := s.commanded_addBreakpoint b
      exact ⟨cs, hmild hcs, h⟩
  | removeBreakpoint b =>
      obtain ⟨cs, hcs, h⟩ := s.commanded_removeBreakpoint b
      exact ⟨cs, hmild hcs, h⟩
  | setBreakpoint script b =>
      obtain ⟨cs, hcs, h⟩ := s.commanded_setBreakpoint script b
      exact ⟨cs, hmild fun c hmem => ⟨script, b, .add, List.mem_singleton.mp (hcs hmem)⟩, h⟩
  | readVariables bindings id slot =>
      exact ⟨[], nofun, s.commanded_readVariables bindings id slot⟩
  | terminate | disconnect | cancel => exact hc.elim

/-! ### Breakpoints that are set in advance -/

namespace Session

/-- The session after some breakpoints were set, one after the other. -/
def addBreakpoints (s : Session) : List Breakpoint → Session
  | [] => s
  | b :: rest => (s.addBreakpoint b).2.addBreakpoints rest

theorem Peaceful.addBreakpoints {s : Session} (h : s.Peaceful) (breakpoints : List Breakpoint) :
    (s.addBreakpoints breakpoints).Peaceful ∧ (s.addBreakpoints breakpoints).gate = s.gate := by
  induction breakpoints generalizing s with
  | nil => exact ⟨h, rfl⟩
  | cons b rest ih =>
      have hcall : (ControlCall.addBreakpoint b).IsMild := trivial
      obtain ⟨cs, hmild, hcs⟩ := ControlCall.mild_commanded s hcall
      obtain ⟨hpeaceful, hgate⟩ := ih (h.commanded hcs hmild)
      exact ⟨hpeaceful, hgate.trans hcs.gate⟩

end Session

end Pausepoint
