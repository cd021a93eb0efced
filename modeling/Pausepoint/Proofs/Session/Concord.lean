import Pausepoint.Proofs.Session.Agreement
import Pausepoint.Proofs.Session.Calls

/-!
# Pausepoint.Proofs.Session.Concord

The invariant of a session whose dispatcher goes on.

A session is live until its target has ended or its queue was cancelled. `Session.Concord`
holds of it whatever the two sides do, in whatever order, down to the single tasks of the
dispatcher: gate and target agree on every thread, and nothing is closed. It does not survive
a `terminate` command, which makes the gate forget pauses while the session goes on; nor
does it survive `abandonPause`, and both are excluded from here on.

There is one lemma per kind of step: `concord_notify`, `concord_commanded`, `concord_take`
and `concord_perform`.
-/

namespace Pausepoint

/-- A task of a dispatcher that goes on. -/
def Task.IsOrdinary : Task → Prop
  | .release _ | .callback _ | .followUp _ | .command _ | .forward _ => True
  | .releaseAll | .lastCallback _ | .closeQueue | .closeGate | .forwardClosed | .announceClosed
  | .finish _ => False

namespace EventQueue

variable {q rest : EventQueue}

/-- A queue hands out the event in front, unless it was cancelled. -/
theorem next_event {e : Event} (h : q.next = .event e rest) :
    q.cancelled = false ∧ q.events = e :: rest.events ∧ rest = { q with events := rest.events } := by
  unfold next at h
  split at h
  · cases h
  · next hcancelled =>
      split at h
      · next hevents =>
          cases h
          exact ⟨by simpa using hcancelled, hevents, rfl⟩
      · split at h <;> cases h

/-- It hands out nothing any more once it was cancelled, or closed with nothing in it. -/
theorem next_none (h : q.next = .none) : q.cancelled = true ∨ q.events = [] ∧ q.closed = true := by
  unfold next at h
  split at h
  · next hcancelled => exact .inl hcancelled
  · split at h
    · cases h
    · next hevents =>
        split at h
        · next hclosed => exact .inr ⟨hevents, hclosed⟩
        · cases h

end EventQueue

namespace Session

/-- Events may still be handed out, and threads may still change. -/
structure IsLive (s : Session) : Prop where
  target : s.target.state ≠ .terminated
  queue : s.queue.cancelled = false

/-- Gate and target agree on a thread. -/
def AgreesOn (s : Session) (id : ThreadId) : Prop :=
  Agreement s.gate id (s.target.stateOf id) (lane id s.queue.events)
    (.release id ∈ s.worker.agenda)

/-- Everything that holds of a live session. -/
structure Agrees (s : Session) : Prop where
  /-- The queue takes everything. -/
  queue_open : s.queue.closed = false
  /-- The gate refuses only single reports. -/
  gate_open : s.gate.closed = false
  /-- The dispatcher goes on. -/
  awake : s.worker.exit = none
  ordinary : ∀ task ∈ s.worker.agenda, task.IsOrdinary
  /-- The gate is told of a decision before anyone else. -/
  release_first : ∀ id, .release id ∉ s.worker.agenda.tail
  indexed : s.target.registry.Indexed
  /-- Before the engine's start is dispatched, no thread is known, and none will be. -/
  unstarted : s.target.state = .notStarted →
    (∀ id, s.target.stateOf id = none) ∧ Heralded s.queue.events ∧
      (s.gate.phase = .started → .notification .engineStarted ∈ s.queue.events)
  /-- Once the gate has admitted the end of the engine, that end waits to be dispatched. -/
  ending : s.gate.phase = .ended → .notification .engineTerminated ∈ s.queue.events
  agreesOn : ∀ id, s.AgreesOn id

/-- **The invariant**: a session that is live is in agreement with itself. -/
def Concord (s : Session) : Prop :=
  s.IsLive → s.Agrees

/-- It holds of a fresh session. -/
theorem concord_create (settings : DebuggerSettings) : (create settings).Concord := fun _ =>
  { queue_open := rfl
    gate_open := rfl
    awake := rfl
    ordinary := by simp [create]
    release_first := by simp [create]
    indexed := Registry.indexed_empty
    unstarted := fun _ => ⟨fun _ => rfl, trivial, nofun⟩
    ending := nofun
    agreesOn := fun id => by
      have hcalm : Task.release id ∉ (create settings).worker.agenda := nofun
      unfold AgreesOn
      rw [eq_false hcalm]
      exact Agreement.fresh nofun nofun }

theorem isTerminated_eq_false {s : Session} (h : s.IsLive) : s.target.isTerminated = false := by
  simpa [Target.isTerminated] using h.target

/-- A live session whose engine start was dispatched runs. -/
theorem IsLive.running {s : Session} (h : s.IsLive) (hs : s.target.state ≠ .notStarted) :
    s.target.state = .running := by
  have hlive := h.target
  cases hstate : s.target.state <;> simp_all

/-- A live session runs as soon as anything is known of a thread. -/
theorem Agrees.running {s : Session} (h : s.Agrees) (hl : s.IsLive) {id : ThreadId}
    {state : ThreadState} (hs : s.target.stateOf id = some state) : s.target.state = .running := by
  refine hl.running fun hn => ?_
  rw [(h.unstarted hn).1 id] at hs
  cases hs

/-! ### Reports -/

/-- What becomes of a report while the queue takes everything: the gate refuses it, it is
queued, or an equal one waits already. -/
theorem notify_cases {s : Session} (hopen : s.queue.closed = false) (n : Notification) :
    (∃ cause, s.gate.accept n = .error cause ∧ s.notify n = (.error cause, s)) ∨
    ∃ gate, s.gate.accept n = .ok gate ∧
      (s.notify n = (.ok (),
          { s with gate, queue := { s.queue with events := s.queue.events ++ [.notification n] } }) ∨
        .notification n ∈ s.queue.events ∧ s.notify n = (.ok (), { s with gate })) := by
  cases ha : s.gate.accept n with
  | error cause => exact .inl ⟨cause, rfl, by simp only [notify, ha]⟩
  | ok gate =>
      refine .inr ⟨gate, rfl, ?_⟩
      by_cases hd : (s.queue.dedupe && decide (Event.notification n ∈ s.queue.events)) = true
      · refine .inr ⟨?_, by simp [notify, ha, EventQueue.submit, hopen, hd]⟩
        rw [Bool.and_eq_true] at hd
        exact of_decide_eq_true hd.2
      · refine .inl ?_
        simp only [notify, ha, EventQueue.submit, hopen, if_neg hd, Bool.false_eq_true, if_false]

/-- A report changes nothing but the gate and the end of the queue. -/
theorem notify_frame (s : Session) (n : Notification) :
    (s.notify n).2.target = s.target ∧ (s.notify n).2.worker = s.worker ∧
      (s.notify n).2.breakpoints = s.breakpoints ∧
      ((s.notify n).2.queue = s.queue ∨
        (s.notify n).2.queue = { s.queue with events := s.queue.events ++ [.notification n] }) := by
  unfold notify
  split
  · exact ⟨rfl, rfl, rfl, .inl rfl⟩
  · split
    · next hsubmit =>
        refine ⟨rfl, rfl, rfl, ?_⟩
        unfold EventQueue.submit at hsubmit
        split at hsubmit
        · cases hsubmit
        · split at hsubmit
          · cases hsubmit
            exact .inl rfl
          · cases hsubmit
            exact .inr rfl
    · exact ⟨rfl, rfl, rfl, .inl rfl⟩

theorem isLive_notify {s : Session} {n : Notification} : (s.notify n).2.IsLive ↔ s.IsLive := by
  obtain ⟨ht, -, -, hq⟩ := notify_frame s n
  have hcancelled : (s.notify n).2.queue.cancelled = s.queue.cancelled := by
    rcases hq with hq | hq <;> rw [hq]
  exact ⟨fun h => ⟨ht ▸ h.target, hcancelled ▸ h.queue⟩, fun h => ⟨ht.symm ▸ h.target, hcancelled.symm ▸ h.queue⟩⟩

/-- How far the gate is shows in what waits, once an admitted report waits too. -/
theorem phase_of_admitted {gate gate' : Gate} {n : Notification} (hgate : gate.accept n = .ok gate')
    {events later : List Event} (hsub : events ⊆ later) (hn : .notification n ∈ later) :
    ((gate.phase = .started → .notification .engineStarted ∈ events) →
        gate'.phase = .started → .notification .engineStarted ∈ later) ∧
      ((gate.phase = .ended → .notification .engineTerminated ∈ events) →
        gate'.phase = .ended → .notification .engineTerminated ∈ later) := by
  cases hid : n.thread? with
  | none =>
      obtain ⟨rfl, -, rfl⟩ | ⟨rfl, rfl⟩ := Gate.accept_engine hid hgate
      · exact ⟨fun _ _ => hn, fun _ => nofun⟩
      · exact ⟨fun _ => nofun, fun _ _ => hn⟩
  | some id =>
      obtain ⟨-, -, -, rfl⟩ := Gate.accept_thread hid hgate
      exact ⟨fun h hp => hsub (h hp), fun h hp => hsub (h hp)⟩

/-- A report that is admitted before the start of the engine is dispatched is about no thread, or
that start waits in front of it. -/
theorem heralded_admitted {gate gate' : Gate} {n : Notification} (hgate : gate.accept n = .ok gate')
    {events : List Event} (h : Heralded events)
    (hstart : gate.phase = .started → .notification .engineStarted ∈ events) :
    Heralded (events ++ [.notification n]) := by
  refine heralded_append h ?_
  cases hid : n.thread? with
  | none => exact .inr (heralded_single hid)
  | some id => exact .inl (hstart (Gate.accept_thread hid hgate).1)

/-- **Reporting keeps the invariant.** -/
theorem concord_notify {s : Session} (h : s.Concord) (n : Notification) : (s.notify n).2.Concord := by
  intro hl
  have hl' := isLive_notify.mp hl
  have ha := h hl'
  -- Refused, queued, or dropped because an equal report waits.
  obtain ⟨cause, -, hn⟩ | ⟨gate, hgate, hn | ⟨hmem, hn⟩⟩ := notify_cases ha.queue_open n
  · rw [hn]
    exact ha
  · rw [hn]
    obtain ⟨hstarted, hended⟩ := phase_of_admitted hgate
      (List.subset_append_left s.queue.events [.notification n]) (by simp)
    refine
      { ha with
        gate_open := (Gate.closed_of_accept hgate).2
        unstarted := fun hs => ?_
        ending := hended ha.ending
        agreesOn := fun id => ?_ }
    · obtain ⟨hnone, hherald, hstart⟩ := ha.unstarted hs
      exact ⟨hnone, heralded_admitted hgate hherald hstart, hstarted hstart⟩
    · have hon := ha.agreesOn id
      simp only [AgreesOn, lane_append] at hon ⊢
      cases hid : n.thread? with
      | none =>
          rw [lane_cons_of_ne (by simp [hid]), lane_nil, List.append_nil]
          exact hon.admit_engine hid hgate
      | some other =>
          by_cases hne : id = other
          · subst hne
            rw [lane_cons_self hid]
            exact hon.accepted hid hgate
          · rw [lane_cons_of_ne (by rw [hid]; exact fun he => hne (Option.some.inj he).symm),
              lane_nil, List.append_nil]
            exact hon.admit_other hid hne hgate
  · rw [hn]
    obtain ⟨hstarted, hended⟩ := phase_of_admitted hgate (List.Subset.refl s.queue.events) hmem
    refine
      { ha with
        gate_open := (Gate.closed_of_accept hgate).2
        unstarted := fun hs => ?_
        ending := hended ha.ending
        agreesOn := fun id => ?_ }
    · obtain ⟨hnone, hherald, hstart⟩ := ha.unstarted hs
      exact ⟨hnone, hherald, hstarted hstart⟩
    · have hon := ha.agreesOn id
      unfold AgreesOn at hon ⊢
      cases hid : n.thread? with
      | none => exact hon.admit_engine hid hgate
      | some other =>
          by_cases hne : id = other
          · subst hne
            exact hon.admit_duplicate hid hgate (mem_lane.mpr ⟨hmem, hid⟩)
          · exact hon.admit_other hid hne hgate

/-! ### Calls of the control side -/

theorem Commanded.isLive {s s' : Session} {cs : List Command} (h : s.Commanded s' cs) :
    s'.IsLive ↔ s.IsLive := by
  have hcancelled : s'.queue.cancelled = s.queue.cancelled := by rw [h.queue]
  exact ⟨fun hl => ⟨h.target.state ▸ hl.target, hcancelled ▸ hl.queue⟩,
    fun hl => ⟨h.target.state ▸ hl.target, hcancelled ▸ hl.queue⟩⟩

/-- **Queueing commands keeps the invariant.** -/
theorem concord_commanded {s s' : Session} {cs : List Command} (h : s.Concord)
    (hc : s.Commanded s' cs) : s'.Concord := by
  intro hl
  have ha := h (hc.isLive.mp hl)
  have hr := ha.indexed
  refine ⟨?_, ?_, ?_, ?_, ?_, hc.target.indexed hr, ?_, ?_, ?_⟩
  · rw [hc.queue]; exact ha.queue_open
  · rw [hc.gate]; exact ha.gate_open
  · rw [hc.worker]; exact ha.awake
  · rw [hc.worker]; exact ha.ordinary
  · rw [hc.worker]; exact ha.release_first
  · intro hs
    rw [hc.target.state] at hs
    obtain ⟨hnone, hherald, hstart⟩ := ha.unstarted hs
    refine ⟨fun id => by rw [hc.target.stateOf hr]; exact hnone id, ?_, ?_⟩
    · rw [hc.events]
      exact heralded_append hherald (.inr (heralded_commands cs))
    · rw [hc.gate, hc.events]
      exact fun hphase => List.mem_append_left _ (hstart hphase)
  · rw [hc.gate, hc.events]
    exact fun hphase => List.mem_append_left _ (ha.ending hphase)
  · intro id
    have hon := ha.agreesOn id
    simp only [AgreesOn] at hon ⊢
    rw [hc.gate, hc.worker, hc.target.stateOf hr, hc.events, lane_append, lane_commands,
      List.append_nil]
    exact hon

/-- **Every call of the control side keeps the invariant.** -/
theorem concord_call {s : Session} (h : s.Concord) (c : ControlCall) : (c.run s).Concord := by
  by_cases hc : c = .cancel
  · subst hc
    intro hl
    have hcancelled : s.cancel.queue.cancelled = true := by
      unfold cancel EventQueue.cancel
      split
      · assumption
      · rfl
    exact absurd hl.queue (by simp [ControlCall.run, hcancelled])
  · obtain ⟨cs, hcs⟩ := ControlCall.commanded s c hc
    exact concord_commanded h hcs

/-! ### The dispatcher -/

/-- The session with other events in its queue. -/
def withEvents (s : Session) (events : List Event) : Session :=
  { s with queue := { s.queue with events } }

@[simp] theorem events_withEvents (s : Session) (events : List Event) :
    (s.withEvents events).queue.events = events := rfl

@[simp] theorem cancelled_withEvents (s : Session) (events : List Event) :
    (s.withEvents events).queue.cancelled = s.queue.cancelled := rfl

/-- The session with another agenda. -/
def withAgenda (s : Session) (agenda : List Task) : Session :=
  { s with worker := { s.worker with agenda } }

@[simp] theorem withAgenda_withAgenda (s : Session) (tasks other : List Task) :
    (s.withAgenda tasks).withAgenda other = s.withAgenda other := rfl

@[simp] theorem agenda_withAgenda (s : Session) (tasks : List Task) :
    (s.withAgenda tasks).worker.agenda = tasks := rfl

/-- **Taking an event**: a dispatcher that has nothing left to do and has not stopped takes the first in the
queue, or begins to close if there will be none. -/
theorem take?_eq_some {s s' : Session} : s.take? = some s' ↔
    s.worker.agenda = [] ∧ s.worker.exit = none ∧
      ((∃ e rest, s.queue.cancelled = false ∧ s.queue.events = e :: rest ∧
          s' = (s.withEvents rest).handle e) ∨
        (s.queue.cancelled = true ∨ s.queue.events = [] ∧ s.queue.closed = true) ∧
          s' = s.withAgenda (closing .cancelled)) := by
  have hidle : s.isIdle = true ↔ s.worker.agenda = [] ∧ s.worker.exit = none := by
    simp [isIdle]
  constructor
  · intro h
    unfold take? at h
    split at h
    · next hready =>
        refine ⟨(hidle.mp hready).1, (hidle.mp hready).2, ?_⟩
        cases hnext : s.queue.next with
        | event e queue =>
            rw [hnext] at h
            obtain ⟨hlive, hevents, hqueue⟩ := EventQueue.next_event hnext
            refine .inl ⟨e, queue.events, hlive, hevents, ?_⟩
            rw [withEvents, ← hqueue]
            exact (Option.some.inj h).symm
        | none =>
            rw [hnext] at h
            exact .inr ⟨EventQueue.next_none hnext, (Option.some.inj h).symm⟩
        | wait =>
            rw [hnext] at h
            cases h
    · cases h
  · rintro ⟨hagenda, hexit, ⟨e, rest, hlive, hevents, rfl⟩ | ⟨hcancelled | ⟨hevents, hclosed⟩, rfl⟩⟩
    · simp [take?, hidle, hagenda, hexit, EventQueue.next, hlive, hevents, withEvents]
    · simp [take?, hidle, hagenda, hexit, EventQueue.next, hcancelled, withAgenda]
    · simp [take?, hidle, hagenda, hexit, EventQueue.next, hevents, hclosed, withAgenda]

/-- What became of the session, in short. -/
theorem take?_cases {s s' : Session} (h : s.take? = some s') : s.worker.agenda = [] ∧
    ((∃ e rest, s.queue.events = e :: rest ∧ s' = (s.withEvents rest).handle e) ∨
      (s.queue.cancelled = true ∨ s.queue.closed = true) ∧ s' = s.withAgenda (closing .cancelled)) := by
  obtain ⟨hidle, -, ⟨e, rest, -, hevents, rfl⟩ | ⟨hend, rfl⟩⟩ := take?_eq_some.mp h
  · exact ⟨hidle, .inl ⟨e, rest, hevents, rfl⟩⟩
  · exact ⟨hidle, .inr ⟨hend.imp_right And.right, rfl⟩⟩

/-- A queue that is open is taken from. -/
theorem take?_open {s s' : Session} (hopen : s.queue.closed = false)
    (hlive : s.queue.cancelled = false) (h : s.take? = some s') :
    s.worker.agenda = [] ∧ ∃ e rest, s.queue.events = e :: rest ∧
      s' = (s.withEvents rest).handle e := by
  obtain ⟨hidle, hevent | ⟨hends, -⟩⟩ := take?_cases h
  · exact ⟨hidle, hevent⟩
  · simp [hopen, hlive] at hends

def targetAfter (s : Session) : Event → Target
  | .notification n => (s.target.handleNotification s.breakpoints n).2
  | .command c => (s.target.handleCommand c).2

/-- The tasks that an event leaves. -/
def tasksAfter (s : Session) : Event → List Task
  | .notification n => notificationTasks n (s.target.handleNotification s.breakpoints n).1
  | .command c => commandTasks c (s.target.handleCommand c).1

/-- Handling an event changes the target and leaves tasks. -/
theorem handle_eq (s : Session) (e : Event) :
    s.handle e = { s with
      target := s.targetAfter e
      worker := { s.worker with event := e.kind, agenda := s.tasksAfter e } } := by
  cases e <;> rfl

@[simp] theorem target_handle (s : Session) (e : Event) : (s.handle e).target = s.targetAfter e := by
  rw [handle_eq]

@[simp] theorem agenda_handle (s : Session) (e : Event) :
    (s.handle e).worker.agenda = s.tasksAfter e := by
  rw [handle_eq]

@[simp] theorem queue_handle (s : Session) (e : Event) : (s.handle e).queue = s.queue := by
  rw [handle_eq]

@[simp] theorem targetAfter_withEvents (s : Session) (rest : List Event) (e : Event) :
    (s.withEvents rest).targetAfter e = s.targetAfter e := by
  cases e <;> rfl

@[simp] theorem tasksAfter_withEvents (s : Session) (rest : List Event) (e : Event) :
    (s.withEvents rest).tasksAfter e = s.tasksAfter e := by
  cases e <;> rfl

/-- The tasks after a report go on, unless it is the end of the engine. -/
theorem ordinary_notificationTasks {n : Notification} (hn : n ≠ .engineTerminated)
    (effects : Effects) : ∀ task ∈ notificationTasks n effects,
      task.IsOrdinary ∧ ∀ id, task ≠ .release id := by
  intro task htask
  simp only [notificationTasks, hn, if_false, List.append_nil, List.mem_append, List.mem_map] at htask
  rcases htask with ⟨c, -, rfl⟩ | ⟨c, -, rfl⟩
  · exact ⟨trivial, nofun⟩
  · exact ⟨trivial, nofun⟩

/-- What is left to show of a session in agreement once it has handled an event. -/
theorem Agrees.handle {s : Session} (ha : s.Agrees) {e : Event} {rest : List Event}
    (hevents : s.queue.events = e :: rest) (hend : e ≠ .notification .engineTerminated)
    (hordinary : ∀ task ∈ s.tasksAfter e, task.IsOrdinary)
    (hfirst : ∀ id, .release id ∉ (s.tasksAfter e).tail)
    (hindexed : (s.targetAfter e).registry.Indexed)
    (hunstarted : (s.targetAfter e).state = .notStarted →
      (∀ id, (s.targetAfter e).stateOf id = none) ∧ Heralded rest ∧
        (s.gate.phase = .started → .notification .engineStarted ∈ rest))
    (hon : ∀ id, Agreement s.gate id ((s.targetAfter e).stateOf id) (lane id rest)
      (.release id ∈ s.tasksAfter e)) :
    ((s.withEvents rest).handle e).Agrees := by
  rw [handle_eq, targetAfter_withEvents, tasksAfter_withEvents]
  exact
    { queue_open := ha.queue_open
      gate_open := ha.gate_open
      awake := ha.awake
      ordinary := hordinary
      release_first := hfirst
      indexed := hindexed
      unstarted := hunstarted
      ending := fun hphase => by
        have hmem := ha.ending hphase
        rw [hevents] at hmem
        exact (List.mem_cons.mp hmem).resolve_left (Ne.symm hend)
      agreesOn := hon }

/-- An idle dispatcher delivers no decision. -/
theorem Agrees.agreesOn_idle {s : Session} (ha : s.Agrees) (hidle : s.worker.agenda = [])
    (id : ThreadId) : Agreement s.gate id (s.target.stateOf id) (lane id s.queue.events) False := by
  have hon := ha.agreesOn id
  simpa only [AgreesOn, hidle, List.not_mem_nil] using hon

/-- **A report that waits in front of the queue finds its thread as it should**, in a session
that runs. -/
theorem Agrees.head_finds {s : Session} (ha : s.Agrees) (hl : s.IsLive) {n : Notification}
    {rest : List Event} (hevents : s.queue.events = .notification n :: rest) {id : ThreadId}
    (hid : n.thread? = some id) :
    s.target.state = .running ∧ n.Finds (s.target.stateOf id) := by
  have hon := (ha.agreesOn id).fits
  rw [hevents, lane_cons_self hid] at hon
  refine ⟨hl.running fun hs => ?_, hon.1⟩
  obtain ⟨-, hherald, -⟩ := ha.unstarted hs
  rw [hevents] at hherald
  exact not_heralded hid rest hherald

/-- A pause in front of the queue is all that waits about its thread. -/
theorem Agrees.lane_of_pause {s : Session} (ha : s.Agrees) {n : Notification} {rest : List Event}
    (hevents : s.queue.events = .notification n :: rest) {id : ThreadId} (hid : n.thread? = some id)
    (hp : n.isPause = true) : lane id rest = [] := by
  have hon := ha.agreesOn id
  rw [AgreesOn, hevents, lane_cons_self hid] at hon
  have hown (m) (hm : m ∈ lane id rest) : m.thread? = some id := (mem_lane.mp hm).2
  exact eq_nil_of_fits_pause hown hp hon.fits

/-- Handling a report keeps the invariant. -/
theorem agrees_handle_notification {s : Session} (ha : s.Agrees) (hl : s.IsLive)
    (hidle : s.worker.agenda = []) {n : Notification} {rest : List Event}
    (hevents : s.queue.events = .notification n :: rest)
    (hstill : (s.targetAfter (.notification n)).state ≠ .terminated) :
    ((s.withEvents rest).handle (.notification n)).Agrees := by
  have hend : n ≠ .engineTerminated := by
    rintro rfl
    exact hstill (Target.state_handleNotification_engineTerminated _ _)
  have htasks := ordinary_notificationTasks hend (s.target.handleNotification s.breakpoints n).1
  have hnone : ∀ id, .release id ∉ s.tasksAfter (.notification n) :=
    fun id hmem => (htasks _ hmem).2 id rfl
  have hon := fun id => ha.agreesOn_idle hidle id
  rw [hevents] at hon
  cases hid : n.thread? with
  | some id =>
      -- The report is the next one of its thread, whose transition it is; the others are as before.
      obtain ⟨hrun, hfinds⟩ := ha.head_finds hl hevents hid
      obtain ⟨next, hm, hnext, -⟩ := Target.moves_of_finds ha.indexed hrun s.breakpoints hid hfinds
      refine ha.handle hevents (by simpa using hend) (fun task h => (htasks task h).1)
        (fun id h => hnone id (List.mem_of_mem_tail h)) hm.indexed (fun hs => absurd (hm.state.symm.trans hs) (by rw [hrun]; decide)) fun other => ?_
      have hother := hon other
      rw [eq_false (hnone other)]
      by_cases he : other = id
      · subst he
        rw [lane_cons_self hid] at hother
        rw [targetAfter, hm.stateOf_self, hnext]
        exact hother.arrive
      · rw [lane_cons_of_ne (by rw [hid]; exact fun h => he (Option.some.inj h).symm)] at hother
        rw [targetAfter, hm.stateOf_of_ne he]
        exact hother
  | none =>
      obtain rfl := n.eq_engineStarted hid hend
      have hsame := Target.handleNotification_engineStarted hl.target s.breakpoints
      refine ha.handle hevents (by decide) (fun task h => (htasks task h).1)
        (fun id h => hnone id (List.mem_of_mem_tail h)) (hsame.1 ▸ ha.indexed) (fun hs => absurd (hsame.2.symm.trans hs) (by decide)) fun other => ?_
      have hstate : (s.target.handleNotification s.breakpoints .engineStarted).2.stateOf other =
          s.target.stateOf other := by
        simp only [Target.stateOf, Target.thread?, hsame.1]
      rw [eq_false (hnone other), targetAfter, hstate]
      exact hon other

/-- Handling a command keeps the invariant. -/
theorem agrees_handle_command {s : Session} (ha : s.Agrees) (hl : s.IsLive)
    (hidle : s.worker.agenda = []) {c : Command} (hc : c ≠ .terminate) {rest : List Event}
    (hevents : s.queue.events = .command c :: rest)
    (hstill : (s.targetAfter (.command c)).state ≠ .terminated) :
    ((s.withEvents rest).handle (.command c)).Agrees := by
  have hon := fun id => ha.agreesOn_idle hidle id
  rw [hevents] at hon
  have hunstarted : s.target.state = .notStarted → (∀ id, s.target.stateOf id = none) ∧
      Heralded rest ∧ (s.gate.phase = .started → .notification .engineStarted ∈ rest) := by
    intro hs
    obtain ⟨hnone, hherald, hstart⟩ := ha.unstarted hs
    rw [hevents] at hherald hstart
    exact ⟨hnone, hherald, fun hphase => by simpa using hstart hphase⟩
  have hterm := isTerminated_eq_false hl
  cases c with
  | terminate => exact absurd rfl hc
  | disconnect =>
      exact absurd (Target.state_handleCommand_disconnect hl.target) hstill
  | setBreakpoint script b action =>
      have hsame : s.target.handleCommand (.setBreakpoint script b action) =
          ({ deliver := true }, s.target) := by simp [Target.handleCommand, hterm]
      have htarget : s.targetAfter (.command (.setBreakpoint script b action)) = s.target := by
        rw [targetAfter, hsame]
      have htasks : s.tasksAfter (.command (.setBreakpoint script b action)) =
          [.command (.setBreakpoint script b action), .forward (.setBreakpoint script b action)] := by
        rw [tasksAfter, hsame]
        rfl
      refine ha.handle hevents (by simp) ?_ ?_ (htarget ▸ ha.indexed) (htarget ▸ hunstarted) fun id => ?_
      · simp [htasks, Task.IsOrdinary]
      · simp [htasks]
      · simpa [htasks, htarget] using hon id
  | resume id mode =>
      by_cases hs : s.target.stateOf id = some .suspended
      -- Who is suspended has nothing queued, so the decision agrees with its lane.
      · obtain ⟨next, hm, hnext, heffects⟩ := Target.moves_of_resume ha.indexed hterm mode hs
        have hrun := ha.running hl hs
        have htasks : s.tasksAfter (.command (.resume id mode)) =
            [.release id, .callback (.threadStateChanged id mode.resultingState),
              .command (.resume id mode), .forward (.resume id mode)] := by
          rw [tasksAfter, heffects]
          rfl
        refine ha.handle hevents (by simp) ?_ ?_ hm.indexed (fun hs => absurd (hm.state.symm.trans hs) (by rw [hrun]; decide)) fun other => ?_
        · simp [htasks, Task.IsOrdinary]
        · simp [htasks]
        · have hother := hon other
          rw [lane_cons_command] at hother
          by_cases he : other = id
          · subst he
            rw [hs] at hother
            rw [targetAfter, hm.stateOf_self, hnext]
            have hnil := eq_nil_of_fits_suspended hother.own hother.fits
            rw [hnil] at hother ⊢
            simpa [htasks] using hother.decide mode
          · rw [targetAfter, hm.stateOf_of_ne he]
            simpa [htasks, he] using hother
      -- A decision on a thread that is not suspended is dropped.
      · have hsame := Target.handleCommand_resume_of_ne mode hs
        have htarget : s.targetAfter (.command (.resume id mode)) = s.target := by
          rw [targetAfter, hsame]
        have htasks : s.tasksAfter (.command (.resume id mode)) = [] := by
          rw [tasksAfter, hsame]
          rfl
        refine ha.handle hevents (by simp) ?_ ?_ (htarget ▸ ha.indexed) (htarget ▸ hunstarted) fun other => ?_
        · simp [htasks]
        · simp [htasks]
        · simpa [htasks, htarget] using hon other

/-- A target that has ended does not change any more. -/
theorem targetAfter_of_terminated {s : Session} (h : s.target.state = .terminated) (e : Event) :
    s.targetAfter e = s.target := by
  cases e with
  | notification n => exact Target.handleNotification_of_terminated h s.breakpoints n
  | command c => exact Target.handleCommand_of_terminated h c

/-- Taking an event revives nothing. -/
theorem isLive_of_take {s s' : Session} (hs : s.take? = some s') (h : s'.IsLive) : s.IsLive := by
  obtain ⟨-, ⟨e, rest, -, rfl⟩ | ⟨-, rfl⟩⟩ := take?_cases hs
  · refine ⟨fun hterm => h.target ?_, by simpa using h.queue⟩
    rw [target_handle, targetAfter_withEvents, targetAfter_of_terminated hterm, hterm]
  · exact ⟨h.target, h.queue⟩

/-- **Taking an event keeps the invariant**, unless it is `terminate`. -/
theorem concord_take {s s' : Session} (h : s.Concord) (hs : s.take? = some s')
    (hterm : s.queue.events.head? ≠ some (.command .terminate)) : s'.Concord := by
  intro hl'
  have hl : s.IsLive := isLive_of_take hs hl'
  have ha := h hl
  obtain ⟨hidle, e, rest, hevents, rfl⟩ := take?_open ha.queue_open hl.queue hs
  have hstill : (s.targetAfter e).state ≠ .terminated := by simpa using hl'.target
  cases e with
  | notification n => exact agrees_handle_notification ha hl hidle hevents hstill
  | command c =>
      refine agrees_handle_command ha hl hidle ?_ hevents hstill
      rintro rfl
      exact hterm (by rw [hevents]; rfl)

/-- Doing a task is its effect, with the rest of the agenda left. -/
theorem perform?_cases {s s' : Session} {task : Task} (h : s.perform? = some (task, s')) :
    ∃ rest, s.worker.agenda = task :: rest ∧
      s' = (s.withAgenda rest).effect task := by
  unfold perform? at h
  split at h
  · cases h
  · next first rest hagenda =>
      obtain ⟨rfl, rfl⟩ := Prod.mk.inj (Option.some.inj h)
      exact ⟨rest, hagenda, rfl⟩

/-- No task changes the agenda, which it was taken from before. -/
@[simp] theorem agenda_effect (s : Session) (task : Task) :
    (s.effect task).worker.agenda = s.worker.agenda := by
  cases task with
  | followUp c =>
      obtain ⟨cs, -, hc, -⟩ := s.commanded_submit c
      exact (congrArg Worker.agenda hc.worker :)
  | release | releaseAll | callback | command | forward | lastCallback | closeQueue | closeGate
  | forwardClosed | announceClosed | finish => rfl

/-- No task changes the target. -/
theorem target_effect (s : Session) (task : Task) : (s.effect task).target = s.target := by
  cases task with
  | followUp c =>
      obtain ⟨cs, -, -, ht⟩ := s.commanded_submit c
      exact ht
  | release | releaseAll | callback | command | forward | lastCallback | closeQueue | closeGate
  | forwardClosed | announceClosed | finish => rfl

/-- No task cancels the queue, or takes a cancellation back. -/
theorem cancelled_effect (s : Session) (task : Task) :
    (s.effect task).queue.cancelled = s.queue.cancelled := by
  cases task with
  | followUp c =>
      obtain ⟨cs, -, hc, -⟩ := s.commanded_submit c
      exact (congrArg EventQueue.cancelled hc.queue :)
  | release | releaseAll | callback | command | forward | lastCallback | closeQueue | closeGate
  | forwardClosed | announceClosed | finish => rfl

theorem dedupe_effect (s : Session) (task : Task) : (s.effect task).queue.dedupe = s.queue.dedupe := by
  cases task with
  | followUp c =>
      obtain ⟨cs, -, hc, -⟩ := s.commanded_submit c
      exact (congrArg EventQueue.dedupe hc.queue :)
  | release | releaseAll | callback | command | forward | lastCallback | closeQueue | closeGate
  | forwardClosed | announceClosed | finish => rfl

/-- One task alone closes the queue. -/
theorem closed_effect (s : Session) {task : Task} (h : task ≠ .closeQueue) :
    (s.effect task).queue.closed = s.queue.closed := by
  cases task with
  | closeQueue => exact absurd rfl h
  | followUp c =>
      obtain ⟨cs, -, hc, -⟩ := s.commanded_submit c
      exact (congrArg EventQueue.closed hc.queue :)
  | release | releaseAll | callback | command | forward | lastCallback | closeGate
  | forwardClosed | announceClosed | finish => rfl

theorem isLive_effect {s : Session} {task : Task} : (s.effect task).IsLive ↔ s.IsLive := by
  have ht := target_effect s task
  have hq := cancelled_effect s task
  exact ⟨fun h => ⟨ht ▸ h.target, hq ▸ h.queue⟩, fun h => ⟨ht.symm ▸ h.target, hq.symm ▸ h.queue⟩⟩

/-- What is left behind the next task is ordinary, and no release. -/
theorem Agrees.of_agenda {s : Session} (ha : s.Agrees) {task : Task} {rest : List Task}
    (hagenda : s.worker.agenda = task :: rest) :
    (∀ other ∈ rest, other.IsOrdinary) ∧ ∀ id, .release id ∉ rest := by
  refine ⟨fun other h => ha.ordinary other ?_, fun id => ?_⟩
  · rw [hagenda]
    exact List.mem_cons_of_mem _ h
  · simpa [hagenda] using ha.release_first id

/-- Any task but a release may be struck off the agenda. -/
theorem Agrees.strike {s : Session} (ha : s.Agrees) {task : Task} {rest : List Task}
    (hagenda : s.worker.agenda = task :: rest) (htask : ∀ id, task ≠ .release id) :
    (s.withAgenda rest).Agrees := by
  obtain ⟨hordinary, hfirst⟩ := ha.of_agenda hagenda
  refine
    { ha with
      ordinary := hordinary
      release_first := fun id h => hfirst id (List.mem_of_mem_tail h)
      agreesOn := fun id => ?_ }
  have hon := ha.agreesOn id
  have hcalm : Task.release id ∉ task :: rest := by
    simpa [hfirst id] using fun he => htask id he.symm
  simp only [AgreesOn, hagenda, eq_false hcalm] at hon
  simp only [AgreesOn, agenda_withAgenda, eq_false (hfirst id)]
  exact hon

/-- **Doing a task keeps the invariant.** -/
theorem concord_perform {s s' : Session} {task : Task} (h : s.Concord)
    (hs : s.perform? = some (task, s')) : s'.Concord := by
  obtain ⟨rest, hagenda, rfl⟩ := perform?_cases hs
  intro hl'
  have hl : s.IsLive := ⟨(isLive_effect.mp hl').target, (isLive_effect.mp hl').queue⟩
  have ha := h hl
  have hordinary : task.IsOrdinary := ha.ordinary task (by rw [hagenda]; exact List.mem_cons_self)
  cases task with
  | callback | command | forward => exact ha.strike hagenda nofun
  | followUp c =>
      obtain ⟨cs, -, hc, -⟩ := (s.withAgenda rest).commanded_submit c
      exact concord_commanded (fun _ => ha.strike hagenda nofun) hc hl'
  | release thread =>
      obtain ⟨hothers, hfirst⟩ := ha.of_agenda hagenda
      refine
        { ha with
          ordinary := hothers
          release_first := fun id h => hfirst id (List.mem_of_mem_tail h)
          agreesOn := fun id => ?_ }
      have hon := ha.agreesOn id
      simp only [AgreesOn, hagenda, List.mem_cons, Task.release.injEq, eq_false (hfirst id),
        or_false] at hon
      simp only [AgreesOn, agenda_effect, agenda_withAgenda, eq_false (hfirst id)]
      by_cases he : id = thread
      · subst he
        rw [eq_true rfl] at hon
        exact hon.release
      · rw [eq_false he] at hon
        exact hon.release_other he
  | releaseAll | lastCallback | closeQueue | closeGate | forwardClosed | announceClosed | finish =>
      exact hordinary.elim

/-! ### Whole events -/

theorem withAgenda_self (s : Session) : s.withAgenda s.worker.agenda = s := rfl

/-- What a task does has nothing to do with the tasks after it. -/
theorem effect_withAgenda (s : Session) (agenda : List Task) (task : Task) :
    (s.withAgenda agenda).effect task = (s.effect task).withAgenda agenda := by
  cases task with
  | followUp c =>
      have hq : (s.withAgenda agenda).queue = s.queue := rfl
      simp only [effect, submit, hq]
      split <;> rfl
  | release | releaseAll | callback | command | forward | lastCallback | closeQueue | closeGate
  | forwardClosed | announceClosed | finish => rfl

/-- **Handling an event in one piece** is doing the tasks of its agenda one after the other. -/
theorem finishAgenda_induction {P : Session → Prop}
    (hstep : ∀ {s task s'}, P s → s.perform? = some (task, s') → P s') {s : Session} (h : P s) :
    P s.finishAgenda.2 := by
  have key : ∀ (tasks : List Task) (s : Session), P (s.withAgenda tasks) →
      P (tasks.foldl effect (s.withAgenda [])) := by
    intro tasks
    induction tasks with
    | nil => exact fun s h => h
    | cons task rest ih =>
        intro s h
        have hone : P ((s.withAgenda rest).effect task) := hstep h rfl
        rw [effect_withAgenda] at hone
        rw [List.foldl_cons, effect_withAgenda]
        exact ih _ hone
  exact key s.worker.agenda s (by rwa [withAgenda_self])

/-- Afterwards nothing is left to do. -/
theorem finishAgenda_eq (s : Session) :
    s.finishAgenda.2 = (s.worker.agenda.foldl effect s).withAgenda [] := by
  have key : ∀ (tasks : List Task) (s : Session),
      tasks.foldl effect (s.withAgenda []) = (tasks.foldl effect s).withAgenda [] := by
    intro tasks
    induction tasks with
    | nil => exact fun _ => rfl
    | cons task rest ih =>
        intro s
        rw [List.foldl_cons, effect_withAgenda, ih, List.foldl_cons]
  exact key s.worker.agenda s

theorem target_finishAgenda (s : Session) : s.finishAgenda.2.target = s.target :=
  finishAgenda_induction (P := fun s' => s'.target = s.target)
    (fun {before task after} h hs => by
      obtain ⟨rest, -, rfl⟩ := perform?_cases hs
      exact (target_effect _ task).trans h) rfl

theorem isLive_finishAgenda {s : Session} : s.finishAgenda.2.IsLive ↔ s.IsLive :=
  finishAgenda_induction (P := fun s' => s'.IsLive ↔ s.IsLive)
    (fun {before task after} h hs => by
      obtain ⟨rest, -, rfl⟩ := perform?_cases hs
      exact isLive_effect.trans (Iff.trans ⟨fun h => ⟨h.target, h.queue⟩, fun h => ⟨h.target, h.queue⟩⟩ h))
    Iff.rfl

/-- No task of a session that goes on brings a report. -/
theorem lane_perform {s s' : Session} {task : Task} (h : s.Concord)
    (hs : s.perform? = some (task, s')) (hl : s.IsLive) (id : ThreadId) :
    lane id s'.queue.events = lane id s.queue.events := by
  obtain ⟨rest, hagenda, rfl⟩ := perform?_cases hs
  have hordinary := (h hl).ordinary task (by rw [hagenda]; exact List.mem_cons_self)
  cases task with
  | followUp c =>
      obtain ⟨cs, -, hc, -⟩ := commanded_submit (s.withAgenda rest) c
      have hevents : ((s.withAgenda rest).effect (.followUp c)).queue.events =
          s.queue.events ++ cs.map .command := hc.events
      change lane id ((s.withAgenda rest).effect (.followUp c)).queue.events = _
      rw [hevents, lane_append, lane_commands, List.append_nil]
  | release | callback | command | forward => rfl
  | releaseAll | lastCallback | closeQueue | closeGate | forwardClosed | announceClosed | finish =>
      exact hordinary.elim

theorem lane_finishAgenda {s : Session} (h : s.Concord) (hl : s.IsLive) (id : ThreadId) :
    lane id s.finishAgenda.2.queue.events = lane id s.queue.events := by
  have key := finishAgenda_induction (s := s)
    (P := fun s' => (s'.Concord ∧ s'.IsLive) ∧ lane id s'.queue.events = lane id s.queue.events)
    (fun {before task after} h hs => by
      obtain ⟨rest, -, hafter⟩ := perform?_cases hs
      have hlive : after.IsLive := hafter ▸ isLive_effect.mpr ⟨h.1.2.target, h.1.2.queue⟩
      exact ⟨⟨concord_perform h.1.1 hs, hlive⟩, (lane_perform h.1.1 hs h.1.2 id).trans h.2⟩)
    ⟨⟨h, hl⟩, rfl⟩
  exact key.2

/-- A session that an event ends is closed by what is left to do. -/
theorem tasksAfter_closing {s : Session} (hl : s.IsLive) {e : Event}
    (h : (s.targetAfter e).state = .terminated) :
    ∃ before exit, s.tasksAfter e = before ++ closing exit := by
  cases e with
  | notification n =>
      by_cases hn : n = .engineTerminated
      · exact ⟨_, .engineTerminated, by rw [tasksAfter, notificationTasks, if_pos hn]⟩
      · exact absurd h (Target.state_handleNotification hl.target s.breakpoints hn)
  | command c =>
      by_cases hc : c = .disconnect
      · subst hc
        have hdeliver : (s.target.handleCommand .disconnect).1.deliver = true := by
          simp [Target.handleCommand, isTerminated_eq_false hl]
        exact ⟨_, .disconnected, by rw [tasksAfter, commandTasks, if_pos hdeliver, if_pos rfl]⟩
      · exact absurd h (Target.state_handleCommand hl.target hc)

/-- A dispatcher that closes leaves a queue that takes nothing and holds nothing. -/
theorem finishAgenda_closing {s : Session} {before : List Task} {exit : Exit}
    (h : s.worker.agenda = before ++ closing exit) :
    s.finishAgenda.2.queue.closed = true ∧ s.finishAgenda.2.queue.events = [] := by
  rw [finishAgenda_eq, h, List.foldl_append]
  exact ⟨rfl, rfl⟩

/-- **Dispatching an event in one piece keeps the invariant**, unless it is `terminate`. -/
theorem concord_dispatch {s s' : Session} {tasks : List Task} (h : s.Concord)
    (hs : s.dispatch? = some (tasks, s'))
    (hterm : s.queue.events.head? ≠ some (.command .terminate)) : s'.Concord := by
  obtain ⟨taken, htake, hfinish⟩ := Option.map_eq_some_iff.mp hs
  obtain rfl : taken.finishAgenda.2 = s' := congrArg Prod.snd hfinish
  exact finishAgenda_induction concord_perform (concord_take h htake hterm)

end Session

end Pausepoint
