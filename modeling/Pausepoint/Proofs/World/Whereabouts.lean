import Pausepoint.Proofs.Session.Display
import Pausepoint.Proofs.World.Finality
import Pausepoint.Proofs.World.Orderly

/-!
# Pausepoint.Proofs.World.Whereabouts

Where the pause of a thread is while its call waits.

A pause is in one place at a time: its report is in the queue, then it suspends the target, then the
decision on it is on the agenda of the dispatcher, then in the slot, where the call takes it up.
`Whereabouts` says so phase by phase. It takes for granted that nobody but the calls of a thread reports
anything of it, and nothing else: the session may end in any way, and client code may fail.

* `Session.Clear`, `Session.Pends` — no pause of a thread is anywhere; one is;
* `Session.Eases` — a step in which no pause comes in, which is most of them (`Whereabouts.eases`);
* `Session.Tended` — what it takes besides;
* `Whereabouts.perform`, `Whereabouts.take`, `Whereabouts.callStep` — the dispatcher and the calls.
-/

namespace Pausepoint

/-! ### Pauses that are queued -/

/-- The pauses of a thread among some events. -/
def pausesOf (thread : ThreadId) (events : List Event) : List Notification :=
  (lane thread events).filter Notification.isPause

section

variable {thread : ThreadId}

theorem pausesOf_append (events later : List Event) :
    pausesOf thread (events ++ later) = pausesOf thread events ++ pausesOf thread later := by
  rw [pausesOf, lane_append, List.filter_append]
  rfl

theorem pausesOf_commands (cs : List Command) : pausesOf thread (cs.map .command) = [] := by
  rw [pausesOf, lane_commands]
  rfl

theorem pausesOf_cons_pause {n : Notification} (hid : n.thread? = some thread) (hp : n.isPause = true)
    (events : List Event) : pausesOf thread (.notification n :: events) = n :: pausesOf thread events := by
  rw [pausesOf, lane_cons_self hid, List.filter_cons_of_pos hp]
  rfl

theorem pausesOf_cons_other {n : Notification} (h : n.thread? = some thread → n.isPause = false)
    (events : List Event) : pausesOf thread (.notification n :: events) = pausesOf thread events := by
  by_cases hid : n.thread? = some thread
  · rw [pausesOf, lane_cons_self hid, List.filter_cons_of_neg (by simp [h hid])]
    rfl
  · rw [pausesOf, lane_cons_of_ne hid]
    rfl

/-- A report that is no pause of a thread adds none. -/
theorem pausesOf_notify (s : Session) {n : Notification} (h : n.thread? = some thread → n.isPause = false) :
    pausesOf thread (s.notify n).2.queue.events = pausesOf thread s.queue.events := by
  obtain ⟨-, -, -, hq | hq⟩ := s.notify_frame n
  · rw [hq]
  · rw [hq, pausesOf_append, pausesOf_cons_other h]
    exact List.append_nil _

/-- A pause that is admitted is queued at the end, unless it is dropped. -/
theorem pausesOf_notify_pause (s : Session) {n : Notification} (hid : n.thread? = some thread)
    (hp : n.isPause = true) : pausesOf thread (s.notify n).2.queue.events = pausesOf thread s.queue.events ∨
      pausesOf thread (s.notify n).2.queue.events = pausesOf thread s.queue.events ++ [n] := by
  obtain ⟨-, -, -, hq | hq⟩ := s.notify_frame n
  · exact .inl (by rw [hq])
  · exact .inr (by rw [hq, pausesOf_append, pausesOf_cons_pause hid hp]; rfl)

end

namespace Session

/-- A report that is refused is not queued. -/
theorem queue_notify_of_error {s : Session} {n : Notification} {cause : Refusal}
    (h : (s.notify n).1 = .error cause) : (s.notify n).2.queue = s.queue := by
  unfold notify at h ⊢
  split
  · rfl
  · next hgate =>
      rw [hgate] at h
      dsimp only at h
      split
      · next hsubmit =>
          rw [hsubmit] at h
          cases h
      · rfl

/-! ### What a session holds of a pause -/

/-- No pause of a thread is queued, its target is not suspended, and no decision is on its way. -/
structure Clear (s : Session) (thread : ThreadId) : Prop where
  pauses : pausesOf thread s.queue.events = []
  running : s.target.stateOf thread ≠ some .suspended
  settled : ¬ s.Handing thread

/-- A pause of a thread was reported, and its slot is this one. -/
inductive Pends (s : Session) (thread : ThreadId) (report : Notification) (slot : Option (Option Mode)) :
    Prop
  /-- The report waits. -/
  | queued (pauses : pausesOf thread s.queue.events = [report])
      (running : s.target.stateOf thread ≠ some .suspended) (settled : ¬ s.Handing thread)
      (undecided : slot.join = none)
  /-- The report was taken, or is lost with the session. Then the pause is in the target, on the agenda or
  in the slot, or it is over. -/
  | taken (pauses : pausesOf thread s.queue.events = [])
      (decided : slot.join ≠ none → ¬ s.Handing thread)
      (stopped : s.target.stateOf thread = some .suspended → ¬ s.Handing thread ∧ slot.join = none)

/-- A step in which no pause of a thread comes in, and no decision on one. -/
structure Eases (s s' : Session) (thread : ThreadId) : Prop where
  pauses : pausesOf thread s'.queue.events = pausesOf thread s.queue.events ∨
    pausesOf thread s'.queue.events = []
  suspended : s'.target.stateOf thread = some .suspended → s.target.stateOf thread = some .suspended
  handing : s'.Handing thread → s.Handing thread

variable {s s' : Session} {thread : ThreadId} {report : Notification} {slot : Option (Option Mode)}

theorem Eases.refl (s : Session) (thread : ThreadId) : s.Eases s thread :=
  ⟨.inl rfl, id, id⟩

theorem Clear.eases (h : s.Clear thread) (he : s.Eases s' thread) : s'.Clear thread where
  pauses := he.pauses.elim (fun hsame => hsame.trans h.pauses) id
  running hs := h.running (he.suspended hs)
  settled hh := h.settled (he.handing hh)

theorem Pends.eases (h : s.Pends thread report slot) (he : s.Eases s' thread) :
    s'.Pends thread report slot := by
  have hrunning (hr : s.target.stateOf thread ≠ some .suspended) :
      s'.target.stateOf thread ≠ some .suspended := fun hs => hr (he.suspended hs)
  have hsettled (hn : ¬ s.Handing thread) : ¬ s'.Handing thread := fun hh => hn (he.handing hh)
  cases h with
  | queued hpauses hr hn hslot =>
      rcases he.pauses with hsame | hnone
      · exact .queued (hsame.trans hpauses) (hrunning hr) (hsettled hn) hslot
      · exact .taken hnone (fun hdecided => absurd hslot hdecided) fun hs => absurd hs (hrunning hr)
  | taken hpauses hdecided hstopped =>
      refine .taken (he.pauses.elim (fun hsame => hsame.trans hpauses) id)
        (fun hslot => hsettled (hdecided hslot)) fun hs => ?_
      obtain ⟨hn, hslot⟩ := hstopped (he.suspended hs)
      exact ⟨hsettled hn, hslot⟩

/-! ### What it takes besides -/

/-- A session whose threads are in order and which has the given options; at most one command is being
passed on, and no stack of the thread comes by itself. -/
structure Tended (options : TargetOptions) (thread : ThreadId) (s : Session) : Prop where
  exact : s.target.registry.Exact
  options : s.target.options = options
  short : s.forwards.length ≤ 1
  frameless : ∀ frames, .notification (.stackFrames thread frames) ∉ s.queue.events

variable {options : TargetOptions}

theorem tended_create (settings : DebuggerSettings) (thread : ThreadId) :
    (create settings).Tended settings.targetOptions thread where
  exact := Registry.exact_empty
  options := rfl
  short := Nat.zero_le _
  frameless _ := List.not_mem_nil

theorem clear_create (settings : DebuggerSettings) (thread : ThreadId) :
    (create settings).Clear thread where
  pauses := rfl
  running := nofun
  settled := handing_of_forwards rfl thread

theorem Tended.notify (h : s.Tended options thread) {n : Notification}
    (hn : ∀ frames, n ≠ .stackFrames thread frames) : (s.notify n).2.Tended options thread := by
  obtain ⟨ht, hw, -, hq⟩ := s.notify_frame n
  refine ⟨ht ▸ h.exact, ht ▸ h.options, ?_, fun frames hmem => ?_⟩
  · rw [forwards, hw]
    exact h.short
  · rcases hq with hq | hq
    · exact h.frameless frames (hq ▸ hmem)
    · rw [hq] at hmem
      rcases List.mem_append.mp hmem with hmem | hmem
      · exact h.frameless frames hmem
      · exact hn frames (Event.notification.inj (List.mem_singleton.mp hmem)).symm

/-- Whoever queues commands brings no pause in. -/
theorem eases_commands {cs : List Command} (hq : s'.queue.events = s.queue.events ++ cs.map .command)
    (hw : s'.worker = s.worker) (ht : s'.target.stateOf thread = s.target.stateOf thread) :
    s.Eases s' thread where
  pauses := .inl (by rw [hq, pausesOf_append, pausesOf_commands, List.append_nil])
  suspended hs := ht ▸ hs
  handing hh := by rwa [handing_of_worker hw] at hh

theorem Tended.commands (h : s.Tended options thread) {cs : List Command}
    (hq : s'.queue.events = s.queue.events ++ cs.map .command) (hw : s'.worker = s.worker)
    (hexact : s'.target.registry.Exact) (hoptions : s'.target.options = s.target.options) :
    s'.Tended options thread := by
  refine ⟨hexact, hoptions.trans h.options, ?_, fun frames hmem => ?_⟩
  · rw [forwards, hw]
    exact h.short
  · rw [hq] at hmem
    rcases List.mem_append.mp hmem with hmem | hmem
    · exact h.frameless frames hmem
    · obtain ⟨c, -, hc⟩ := List.mem_map.mp hmem
      cases hc

/-! ### The dispatcher -/

/-- What a task changes of the events that wait. -/
theorem events_perform {task : Task} (hs : s.perform? = some (task, s')) :
    s'.queue.events = [] ∨ ∃ cs : List Command, s'.queue.events = s.queue.events ++ cs.map .command := by
  obtain ⟨rest, -, rfl⟩ := perform?_cases hs
  cases task with
  | followUp c =>
      obtain ⟨cs, -, hc, -⟩ := (s.withAgenda rest).commanded_submit c
      exact .inr ⟨cs, hc.events⟩
  | closeQueue => exact .inl rfl
  | release | releaseAll | callback | command | forward | lastCallback | closeGate | forwardClosed
  | announceClosed | finish => exact .inr ⟨[], (List.append_nil _).symm⟩

theorem target_perform {task : Task} (hs : s.perform? = some (task, s')) : s'.target = s.target := by
  obtain ⟨rest, -, rfl⟩ := perform?_cases hs
  exact target_effect _ task

/-- A task eases every thread. -/
theorem eases_perform {task : Task} (hs : s.perform? = some (task, s')) (thread : ThreadId) :
    s.Eases s' thread where
  pauses := by
    rcases events_perform hs with hnil | ⟨cs, hcs⟩
    · exact .inr (by rw [hnil]; rfl)
    · exact .inl (by rw [hcs, pausesOf_append, pausesOf_commands, List.append_nil])
  suspended := by
    rw [target_perform hs]
    exact id
  handing hh := by
    obtain ⟨mode, hmode⟩ := hh
    exact ⟨mode, by rw [forwards_perform hs]; exact List.mem_append_right _ hmode⟩

theorem Tended.perform (h : s.Tended options thread) {task : Task} (hs : s.perform? = some (task, s')) :
    s'.Tended options thread := by
  refine ⟨target_perform hs ▸ h.exact, target_perform hs ▸ h.options, ?_, fun frames hmem => ?_⟩
  · have hshort := h.short
    rw [forwards_perform hs, List.length_append] at hshort
    omega
  · rcases events_perform hs with hnil | ⟨cs, hcs⟩
    · rw [hnil] at hmem
      cases hmem
    · rw [hcs] at hmem
      rcases List.mem_append.mp hmem with hmem | hmem
      · exact h.frameless frames hmem
      · obtain ⟨c, -, hc⟩ := List.mem_map.mp hmem
        cases hc

/-- A failure of client code passes nothing on. -/
theorem forwards_fail (s : Session) (message : String) : (s.fail message).forwards = [] := by
  have hlast (cs : List Callback) : (cs.map Task.lastCallback).filterMap Task.forwarded? = [] := by
    rw [List.filterMap_map]
    exact List.filterMap_eq_nil_iff.mpr fun _ _ => rfl
  show (Task.releaseAll :: _ ++ closing _).filterMap Task.forwarded? = []
  rw [List.filterMap_append, List.filterMap_cons_none rfl, hlast]
  rfl

theorem target_fail (s : Session) (message : String) : ∃ fault,
    (s.fail message).target = (s.target.terminate fault).2 := ⟨_, rfl⟩

theorem eases_fail (s : Session) (message : String) (thread : ThreadId) :
    s.Eases (s.fail message) thread where
  pauses := .inl rfl
  suspended := by
    obtain ⟨fault, hfault⟩ := s.target_fail message
    rw [hfault]
    exact (s.target.spares_terminate fault thread).stateOf
  handing hh := absurd hh (handing_of_forwards (s.forwards_fail message) thread)

theorem Tended.fail (h : s.Tended options thread) (message : String) :
    (s.fail message).Tended options thread := by
  obtain ⟨fault, hfault⟩ := s.target_fail message
  refine ⟨?_, ?_, ?_, h.frameless⟩
  · rw [hfault]
    exact (Target.tells_terminate h.exact fault).exact
  · rw [hfault, Target.options_terminate]
    exact h.options
  · rw [s.forwards_fail message]
    exact Nat.zero_le _

/-- **What taking the next step changes of a target**: it spares a thread, or takes up a pause of it. -/
theorem spares_take (h : s.Tended options thread) (hs : s.take? = some s') :
    s.target.Spares s'.target thread ∨ ∃ n rest, s.queue.events = .notification n :: rest ∧
      n.thread? = some thread ∧ n.isPause = true ∧
      s' = (s.withEvents rest).handle (.notification n) := by
  obtain ⟨-, ⟨e, rest, hevents, rfl⟩ | ⟨-, rfl⟩⟩ := take?_cases hs
  · rw [target_handle, targetAfter_withEvents]
    cases e with
    | notification n =>
        by_cases hpause : n.thread? = some thread ∧ n.isPause = true
        · exact .inr ⟨n, rest, hevents, hpause.1, hpause.2, rfl⟩
        · refine .inl (Target.spares_report h.exact.indexed s.breakpoints (fun hid => ?_) fun frames hn => ?_)
          · exact Bool.eq_false_iff.mpr fun hp => hpause ⟨hid, hp⟩
          · exact h.frameless frames (by rw [hevents, ← hn]; exact List.mem_cons_self)
    | command c =>
        left
        by_cases hresume : ∃ mode, c = .resume thread mode ∧ s.target.stateOf thread = some .suspended
        · obtain ⟨mode, rfl, hsus⟩ := hresume
          show s.target.Spares (s.target.handleCommand _).2 thread
          cases hterm : s.target.isTerminated with
          | true =>
              rw [Target.handleCommand, if_pos hterm]
              exact .refl _ _
          | false =>
              refine .of_not_suspended (fun hs => ?_) (s.target.options_handleCommand _)
              exact (Target.suspended_before_command h.exact hterm hs).2 mode rfl
        · exact Target.spares_command h.exact.indexed fun mode hc hsus => hresume ⟨mode, hc, hsus⟩
  · exact .inl (.refl _ _)

theorem Tended.take (h : s.Tended options thread) (hs : s.take? = some s') : s'.Tended options thread := by
  obtain ⟨hidle, ⟨e, rest, hevents, rfl⟩ | ⟨-, rfl⟩⟩ := take?_cases hs
  · refine ⟨?_, ?_, ?_, fun frames hmem => ?_⟩
    · rw [target_handle, targetAfter_withEvents]
      exact exact_targetAfter h.exact e
    · rw [target_handle, targetAfter_withEvents, ← h.options]
      cases e with
      | notification n => exact s.target.options_handleNotification _ n
      | command c => exact s.target.options_handleCommand c
    · rcases forwards_handle s rest e with hnil | ⟨c, -, -, hone⟩
      · rw [hnil]
        exact Nat.zero_le _
      · rw [hone]
        exact Nat.le_refl 1
    · rw [queue_handle, events_withEvents] at hmem
      exact h.frameless frames (by rw [hevents]; exact List.mem_cons_of_mem _ hmem)
  · exact ⟨h.exact, h.options, Nat.zero_le _, h.frameless⟩

/-- Who takes an event passes a decision on a thread on only if it finds the thread suspended, and leaves
it not suspended. -/
theorem handing_take (h : s.Tended options thread) (hs : s.take? = some s') (hh : s'.Handing thread) :
    s.target.stateOf thread = some .suspended ∧ s'.target.stateOf thread ≠ some .suspended := by
  obtain ⟨mode, hmode⟩ := hh
  obtain ⟨-, ⟨e, rest, hevents, rfl⟩ | ⟨-, rfl⟩⟩ := take?_cases hs
  · have hforward : Task.forward (.resume thread mode) ∈ ((s.withEvents rest).handle e).worker.agenda := by
      obtain ⟨task, hmem, htask⟩ := List.mem_filterMap.mp hmode
      cases task with
      | forward c =>
          obtain rfl := Option.some.inj htask
          exact hmem
      | release | releaseAll | callback | followUp | command | lastCallback | closeQueue | closeGate
      | forwardClosed | announceClosed | finish => cases htask
    rw [agenda_handle, tasksAfter_withEvents] at hforward
    have hlets : (Task.forward (.resume thread mode)).LetsGo thread := rfl
    obtain ⟨other, rfl, hsus, hlive⟩ := letsGo_tasksAfter hforward hlets
    refine ⟨hsus, fun hs => ?_⟩
    rw [target_handle, targetAfter_withEvents] at hs
    exact (Target.suspended_before_command h.exact hlive hs).2 other rfl
  · cases hmode

/-! ### Calls -/

/-- What a step of a call of a thread does to a session: it may report something, of this thread at most,
and no stack by itself. -/
inductive HearsOf (s : Session) (thread : ThreadId) : Session → Prop
  | nothing : HearsOf s thread s
  | report {n : Notification} (hown : ∀ other, other ≠ thread → n.thread? ≠ some other)
      (hstack : ∀ id frames, n ≠ .stackFrames id frames) : HearsOf s thread (s.notify n).2
  | abandon : HearsOf s thread (s.abandonPause thread).2

theorem HearsOf.target (h : s.HearsOf thread s') : s'.target = s.target := by
  cases h with
  | nothing | abandon => rfl
  | report => exact (s.notify_frame _).1

theorem HearsOf.tended {other : ThreadId} (h : s.HearsOf other s') (ht : s.Tended options thread) :
    s'.Tended options thread := by
  cases h with
  | nothing => exact ht
  | report _ hstack => exact ht.notify (hstack thread)
  | abandon => exact ⟨ht.exact, ht.options, ht.short, ht.frameless⟩

/-- Reports that are none of a thread ease it. -/
theorem eases_notify (s : Session) {n : Notification} (hn : n.thread? = some thread → n.isPause = false) :
    s.Eases (s.notify n).2 thread := by
  obtain ⟨ht, hw, -⟩ := s.notify_frame n
  refine ⟨.inl (pausesOf_notify s hn), by rw [ht]; exact id, fun hh => ?_⟩
  rwa [handing_of_worker hw] at hh

theorem HearsOf.eases {other : ThreadId} (h : s.HearsOf other s') (hne : thread ≠ other) :
    s.Eases s' thread := by
  cases h with
  | nothing => exact .refl s thread
  | report hown _ => exact s.eases_notify fun hid => absurd hid (hown thread hne)
  | abandon => exact ⟨.inl rfl, id, id⟩

end Session

theorem hearsOf_callStep {b b' : Bridge} {thread : ThreadId} {phase phase' : Option Phase}
    (h : CallStep b thread phase b' phase')
    (hshape : ∀ p, phase = some (.reporting p) → p.ShapedFor thread) :
    b.session.HearsOf thread b'.session := by
  have hpause {p : Pause} (hp : p.ShapedFor thread) :
      b.session.HearsOf thread (b.session.notify p.report).2 := by
    refine .report (fun other hne he => ?_) fun id frames he => ?_
    · rw [hp.thread?] at he
      exact hne (Option.some.inj he).symm
    · have hispause := hp.isPause
      rw [he] at hispause
      cases hispause
  have hresumed (mode : Mode) : b.session.HearsOf thread (b.session.notify (.resumed thread mode)).2 :=
    .report (fun other hne he => hne (Option.some.inj he).symm) fun id frames he => by cases he
  cases h with
  | announce hn =>
      refine .report (fun other _ he => ?_) fun id frames he => ?_
      · rw [hn] at he
        cases he
      · rw [he] at hn
        cases hn
  | silent | enter | refuse | pass | pause | openSlot | takeUp | closed | leave => exact .nothing
  | report | unreported => exact hpause (hshape _ rfl)
  | confirm mode => exact hresumed mode
  | abandon => exact .abandon
  | excuse => exact hresumed .clientRequest

/-! ### The whereabouts of a pause -/

/-- Where the pause of a thread may be while its call is in a phase. Once the engine is closed no call is a
pause any more. -/
def Whereabouts (thread : ThreadId) (s : Session) (slot : Option (Option Mode)) (isOpen : Prop) :
    Option Phase → Prop
  | some (.opening p) | some (.reporting p) =>
      p.ShapedFor thread ∧ s.Clear thread ∧ slot.join = none
  | some (.waiting p) => p.ShapedFor thread ∧ s.Pends thread p.report slot
  | some (.abandoning _) | some (.excusing _) => False
  | none | some (.entering _) | some (.confirming _) | some (.returned _) =>
      isOpen → s.Clear thread ∧ slot.join = none

namespace Whereabouts

variable {thread : ThreadId} {s s' : Session} {slot slot' : Option (Option Mode)} {isOpen isOpen' : Prop}
  {phase : Option Phase} {options : TargetOptions}

/-- **A step that eases a thread** leaves its pause where it is, or it is over. -/
theorem eases (h : Whereabouts thread s slot isOpen phase) (he : s.Eases s' thread)
    (hopen : isOpen' → isOpen) : Whereabouts thread s' slot isOpen' phase := by
  unfold Whereabouts at h ⊢
  split at h
  · exact ⟨h.1, h.2.1.eases he, h.2.2⟩
  · exact ⟨h.1, h.2.1.eases he, h.2.2⟩
  · exact ⟨h.1, h.2.eases he⟩
  · exact h
  · exact h
  all_goals exact fun ho => ⟨(h (hopen ho)).1.eases he, (h (hopen ho)).2⟩

/-- A pause that cannot be where it is said to be is that of a call that waits, or the engine is closed. -/
theorem pends (h : Whereabouts thread s slot isOpen phase) (hnot : ¬ s.Clear thread) :
    (∃ p, phase = some (.waiting p) ∧ p.ShapedFor thread ∧ s.Pends thread p.report slot) ∨
      ¬ isOpen ∧ ∀ s' slot', Whereabouts thread s' slot' False phase := by
  unfold Whereabouts at h
  split at h
  · exact absurd h.2.1 hnot
  · exact absurd h.2.1 hnot
  · exact .inl ⟨_, rfl, h.1, h.2⟩
  · exact h.elim
  · exact h.elim
  all_goals exact .inr ⟨fun ho => hnot (h ho).1, fun _ _ ho => ho.elim⟩

/-- Where the engine is closed nothing else is said. -/
theorem of_closed (h : ∀ s' slot', Whereabouts thread s' slot' False phase) (hnot : ¬ isOpen) :
    Whereabouts thread s slot isOpen phase := by
  rw [eq_false hnot]
  exact h s slot

/-- **A decision is passed on** to the engine, whatever it does with it. -/
theorem hand (h : Whereabouts thread s slot isOpen phase) (hh : s.Handing thread)
    (he : s.Eases s' thread) (hnot : ¬ s'.Handing thread) (hopen : isOpen' → isOpen) :
    Whereabouts thread s' slot' isOpen' phase := by
  obtain ⟨p, rfl, hshape, hpends⟩ | ⟨hclosed, hany⟩ := h.pends fun hclear => hclear.settled hh
  · refine ⟨hshape, ?_⟩
    cases hpends with
    | queued _ _ hsettled _ => exact absurd hh hsettled
    | taken hpauses _ hstopped =>
        refine .taken (he.pauses.elim (fun hsame => hsame.trans hpauses) id) (fun _ => hnot) fun hs => ?_
        exact absurd hh (hstopped (he.suspended hs)).1
  · exact of_closed hany fun ho => hclosed (hopen ho)

/-- **A decision is taken** from the queue, which lets the thread go on. -/
theorem decide (h : Whereabouts thread s slot isOpen phase)
    (hsus : s.target.stateOf thread = some .suspended)
    (hpauses : pausesOf thread s'.queue.events = pausesOf thread s.queue.events)
    (hrunning : s'.target.stateOf thread ≠ some .suspended) : Whereabouts thread s' slot isOpen phase := by
  obtain ⟨p, rfl, hshape, hpends⟩ | ⟨hclosed, hany⟩ := h.pends fun hclear => hclear.running hsus
  · refine ⟨hshape, ?_⟩
    cases hpends with
    | queued _ hr _ _ => exact absurd hsus hr
    | taken hnone _ hstopped =>
        exact .taken (hpauses.trans hnone) (fun hslot => absurd (hstopped hsus).2 hslot)
          fun hs => absurd hs hrunning
  · exact of_closed hany hclosed

/-- **A pause is taken** from the queue. -/
theorem arrive (h : Whereabouts thread s slot isOpen phase) {n : Notification} {rest : List Event}
    (hevents : s.queue.events = .notification n :: rest) (hid : n.thread? = some thread)
    (hp : n.isPause = true) (hrest : s'.queue.events = rest) (hsettled : ¬ s'.Handing thread) :
    Whereabouts thread s' slot isOpen phase := by
  have hcons : pausesOf thread s.queue.events = n :: pausesOf thread rest := by
    rw [hevents, pausesOf_cons_pause hid hp]
  obtain ⟨p, rfl, hshape, hpends⟩ | ⟨hclosed, hany⟩ := h.pends fun hclear => by
    rw [hclear.pauses] at hcons
    cases hcons
  · refine ⟨hshape, ?_⟩
    cases hpends with
    | queued hone _ _ hslot =>
        have hnil : pausesOf thread rest = [] := (List.cons.inj (hcons.symm.trans hone)).2
        exact .taken (hrest ▸ hnil) (fun hdecided => absurd hslot hdecided) fun _ => ⟨hsettled, hslot⟩
    | taken hnone _ _ =>
        rw [hnone] at hcons
        cases hcons
  · exact of_closed hany hclosed

/-- **The dispatcher does a task**, which the engine sees. -/
theorem perform {e : Engine} (h : Whereabouts thread s (e.slots.get? thread) (e.closed = none) phase)
    (htended : s.Tended options thread) {task : Task} (hs : s.perform? = some (task, s')) :
    Whereabouts thread s' ((World.effectOnEngine e task).slots.get? thread)
      ((World.effectOnEngine e task).closed = none) phase := by
  have hopen : (World.effectOnEngine e task).closed = none → e.closed = none := by
    intro hnone
    cases hclosed : e.closed with
    | none => rfl
    | some c =>
        have hsome := e.isSome_closed_effect task (.inr (congrArg Option.isSome hclosed))
        rw [hnone] at hsome
        cases hsome
  by_cases htask : ∃ mode, task = .forward (.resume thread mode)
  · obtain ⟨mode, rfl⟩ := htask
    obtain ⟨hnot, hhanding⟩ := Session.handing_of_forward hs htended.short thread
    exact h.hand (hhanding.mpr ⟨mode, rfl⟩) (Session.eases_perform hs thread) hnot hopen
  · rw [e.slots_effect fun mode he => htask ⟨mode, he⟩]
    exact h.eases (Session.eases_perform hs thread) hopen

/-- **The dispatcher takes an event**, or begins to close. -/
theorem take (h : Whereabouts thread s slot isOpen phase) (htended : s.Tended options thread)
    (hs : s.take? = some s') : Whereabouts thread s' slot isOpen phase := by
  have hpauses : (∀ n rest, s.queue.events = .notification n :: rest → n.thread? = some thread →
      n.isPause = false) → pausesOf thread s'.queue.events = pausesOf thread s.queue.events := by
    intro hother
    obtain ⟨-, ⟨e, rest, hevents, rfl⟩ | ⟨-, rfl⟩⟩ := Session.take?_cases hs
    · rw [Session.queue_handle, Session.events_withEvents, hevents]
      cases e with
      | notification n => exact (pausesOf_cons_other (hother n rest hevents) rest).symm
      | command c => rfl
    · rfl
  by_cases hpause : ∃ n rest, s.queue.events = .notification n :: rest ∧ n.thread? = some thread ∧
      n.isPause = true
  · obtain ⟨n, rest, hevents, hid, hp⟩ := hpause
    obtain ⟨-, ⟨e, rest', hevents', rfl⟩ | ⟨hends, rfl⟩⟩ := Session.take?_cases hs
    · obtain ⟨rfl, rfl⟩ := List.cons.inj (hevents'.symm.trans hevents)
      refine h.arrive hevents hid hp (by rw [Session.queue_handle]; rfl) fun hh => ?_
      rcases Session.forwards_handle s rest' (.notification n) with hnil | ⟨c, hc, -⟩
      · exact Session.handing_of_forwards hnil thread hh
      · cases hc
    · exact h.eases ⟨.inl rfl, id, fun hh => absurd hh (Session.handing_of_forwards rfl thread)⟩ id
  · have hsame := hpauses fun n rest hevents hid =>
      Bool.eq_false_iff.mpr fun hp => hpause ⟨n, rest, hevents, hid, hp⟩
    by_cases hh : s'.Handing thread
    · obtain ⟨hsus, hrunning⟩ := Session.handing_take htended hs hh
      exact h.decide hsus hsame hrunning
    · refine h.eases ⟨.inl hsame, fun hsus => ?_, fun h => absurd h hh⟩ id
      rcases Session.spares_take htended hs with hspares | ⟨n, rest, hevents, hid, hp, -⟩
      · exact hspares.stateOf hsus
      · exact absurd ⟨n, rest, hevents, hid, hp⟩ hpause

/-- **What is displayed of a stop** survives that something is taken, and is there once its report is. -/
theorem displays_take {p : Pause} {frames : List Frame} {reason : Reason} {bindings : ScopeId → Entries}
    (h : Whereabouts thread s slot isOpen (some (.waiting p))) (htended : s.Tended options thread)
    (hs : s.take? = some s') (hreport : p.report = .suspended thread frames reason)
    (hd : s.target.Displays thread frames bindings) : s'.target.Displays thread frames bindings := by
  obtain hspares | ⟨n, rest, hevents, hid, hp, rfl⟩ := Session.spares_take htended hs
  · exact hspares.displays hd
  · obtain ⟨-, hpends⟩ := h
    have hcons : pausesOf thread s.queue.events = n :: pausesOf thread rest := by
      rw [hevents, pausesOf_cons_pause hid hp]
    cases hpends with
    | queued hone hrunning _ _ =>
        obtain rfl : n = p.report := (List.cons.inj (hcons.symm.trans hone)).1
        rw [Session.target_handle, Session.targetAfter_withEvents, hreport]
        exact Target.displays_suspended htended.exact.indexed s.breakpoints frames reason bindings hrunning
    | taken hnone _ _ =>
        rw [hnone] at hcons
        cases hcons

/-- **A call of the thread makes a step.** -/
theorem callStep {b b' : Bridge} {phase' : Option Phase}
    (h : Whereabouts thread b.session (b.engine.slots.get? thread) (b.engine.closed = none) phase)
    (hstep : CallStep b thread phase b' phase') :
    Whereabouts thread b'.session (b'.engine.slots.get? thread) (b'.engine.closed = none) phase' := by
  cases hstep with
  | announce hn =>
      exact fun ho =>
        ⟨(h ho).1.eases (b.session.eases_notify fun hid => by rw [hn] at hid; cases hid), (h ho).2⟩
  | silent | enter | refuse | pass | leave => exact h
  | pause hd =>
      have hopen : b.engine.closed = none := by
        unfold Engine.decide at hd
        split at hd
        · cases hd
        · cases hd
        · assumption
      exact ⟨Engine.shaped_of_decide hd, h hopen⟩
  | openSlot p =>
      refine ⟨h.1, h.2.1, ?_⟩
      rw [World.slots_openSlot, if_pos rfl]
      rfl
  | @report p hok =>
      obtain ⟨hshape, hclear, hslot⟩ := h
      obtain ⟨ht, hw, -⟩ := b.session.notify_frame p.report
      have hrunning : (b.session.notify p.report).2.target.stateOf thread ≠ some .suspended :=
        ht ▸ hclear.running
      have hsettled : ¬ (b.session.notify p.report).2.Handing thread := by
        rw [Session.handing_of_worker hw]
        exact hclear.settled
      refine ⟨hshape, ?_⟩
      -- If the queue has not grown by it, the pause counts as taken.
      rcases pausesOf_notify_pause b.session hshape.thread? hshape.isPause with hsame | hone
      · exact .taken (hsame.trans hclear.pauses) (fun hdecided => absurd hslot hdecided)
          fun hs => absurd hs hrunning
      · rw [hclear.pauses] at hone
        exact .queued hone hrunning hsettled hslot
  | @unreported p cause hrefused =>
      obtain ⟨hshape, hclear, hslot⟩ := h
      obtain ⟨ht, hw, -⟩ := b.session.notify_frame p.report
      intro ho
      refine ⟨⟨?_, ht ▸ hclear.running, ?_⟩, ?_⟩
      · show pausesOf thread (b.session.notify p.report).2.queue.events = []
        rw [Session.queue_notify_of_error hrefused]
        exact hclear.pauses
      · show ¬ (b.session.notify p.report).2.Handing thread
        rw [Session.handing_of_worker hw]
        exact hclear.settled
      · rw [World.slots_dropSlot, if_pos rfl]
        rfl
  | @takeUp p mode hwake =>
      -- A decision in the slot means that the pause was dispatched.
      have hdecided := Engine.decided_of_wakening hwake
      obtain ⟨hslots, -, -⟩ := World.takeUp_frame b.engine thread p mode
      intro ho
      obtain ⟨hshape, hpends⟩ := h
      rw [hdecided] at hpends
      cases hpends with
      | queued _ _ _ hslot => cases hslot
      | taken hpauses hsettled hstopped =>
          refine ⟨⟨hpauses, fun hs => ?_, hsettled nofun⟩, ?_⟩
          · cases (hstopped hs).2
          · show ((b.engine.takeUp thread p mode).slots.get? thread).join = none
            rw [hslots, World.slots_dropSlot, if_pos rfl]
            rfl
  | closed hwake =>
      intro ho
      have hclosed := Engine.closed_of_wakening hwake
      have hnone : b.engine.closed = none := ho
      rw [hnone] at hclosed
      cases hclosed
  | confirm mode => exact fun ho => ⟨(h ho).1.eases (b.session.eases_notify fun _ => rfl), (h ho).2⟩
  | abandon | excuse => exact h.elim

end Whereabouts

end Pausepoint
