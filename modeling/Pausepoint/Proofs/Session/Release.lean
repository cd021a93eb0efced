import Pausepoint.Proofs.Session.Proceedings
import Pausepoint.Proofs.Session.Reports

/-!
# Pausepoint.Proofs.Session.Release

A reported pause can always be released by the control side.

Giving up on a pause, and asking the scripts to end, make the gate forget a pause that the target still
knows of, or that still waits to be dispatched. After that several pauses of one thread may wait at once,
with the report between them that the thread goes on, and a lane no longer makes sense one report after
the other. What survives is weaker than `Agreement` and enough: wherever the gate remembers a pause, the
lane still leads to one.

* `Account` — gate and target about one thread, whatever is reported;
* `Session.Swallows` — the one case that is excluded: a queue without duplicates drops a pause because
  an equal one waits, and the thread is to go on after that one;
* `pause_is_releasable` — the main result;
* `pause_is_stuck` — in the excluded case a thread is refused everything for ever.

Proof shape: `Account` has one lemma per kind of change, `Session.Releasable` packages it for all threads,
and `releasable_losslessStep` is its step lemma over the smallest steps of a session.
-/

namespace Pausepoint

/-! ### Lanes that need not make sense -/

theorem settled_ne_none {state : Option ThreadState} (h : state ≠ none) (ns : List Notification) :
    settled state ns ≠ none := by
  induction ns generalizing state with
  | nil => exact h
  | cons n ns ih => exact ih (Agreement.leads_ne_none (.inr h))

/-- Only the report that a thread goes on ends a pause. -/
theorem settled_of_no_resumed {id : ThreadId} {ns : List Notification}
    (hown : ∀ n ∈ ns, n.thread? = some id) (h : ∀ mode, .resumed id mode ∉ ns) :
    settled (some .suspended) ns = some .suspended := by
  induction ns with
  | nil => rfl
  | cons n ns ih =>
      have hid := hown n List.mem_cons_self
      have hkeeps : n.leads (some .suspended) = some .suspended := by
        cases n with
        | scriptReady | suspended | stackFrames | engineStarted | engineTerminated => rfl
        | resumed other mode =>
            obtain rfl := Option.some.inj hid
            exact absurd List.mem_cons_self (h mode)
      rw [settled_cons, hkeeps]
      exact ih (fun m hm => hown m (List.mem_cons_of_mem _ hm))
        fun mode hm => h mode (List.mem_cons_of_mem _ hm)

/-- A report that leaves the state of its thread alone. -/
def Notification.Quiet (n : Notification) : Prop :=
  ∀ state, n.leads state = state

/-- A lane without a pause leads to one only from a pause, and then nothing in it changes the state. -/
theorem suspended_of_settled {id : ThreadId} {state : Option ThreadState} {ns : List Notification}
    (hown : ∀ n ∈ ns, n.thread? = some id) (hnone : ∀ n ∈ ns, n.isPause = false)
    (h : settled state ns = some .suspended) : state = some .suspended ∧ ∀ n ∈ ns, n.Quiet := by
  induction ns generalizing state with
  | nil => exact ⟨h, nofun⟩
  | cons n ns ih =>
      obtain ⟨hlead, hquiet⟩ := ih (fun m hm => hown m (List.mem_cons_of_mem _ hm))
        (fun m hm => hnone m (List.mem_cons_of_mem _ hm)) h
      have hp := hnone n List.mem_cons_self
      cases n with
      | engineStarted | engineTerminated => cases hown _ List.mem_cons_self
      | scriptReady | suspended => cases hp
      | resumed other mode =>
          exact absurd (Option.some.inj hlead) mode.runs_resultingState.ne_suspended
      | stackFrames other frames =>
          exact ⟨hlead, List.forall_mem_cons.mpr ⟨fun _ => rfl, hquiet⟩⟩

/-! ### Gate and target about one thread -/

/-- What the gate and the target agree on about a thread whatever is reported, with its state, its lane,
and whether the gate is about to learn of a decision on it. -/
structure Account (g : Gate) (id : ThreadId) (state : Option ThreadState) (ns : List Notification)
    (releasing : Prop) : Prop where
  /-- The thread has not ended. -/
  active : ∀ s ∈ state, s.IsActive
  /-- The first that is heard of a thread announces it. -/
  announced : state = none → ∀ n ∈ ns.head?, Gate.announces n = true
  /-- The gate knows only threads that announced themselves. -/
  known : id ∈ g.known → settled state ns ≠ none
  /-- A pause that the gate remembers is one that the lane leads to. -/
  paused : id ∈ g.paused → settled state ns = some .suspended ∨ releasing

namespace Account

variable {g g' : Gate} {id : ThreadId} {state : Option ThreadState} {ns : List Notification}
  {n : Notification} {releasing : Prop}

/-- Before anything is known of a thread. -/
theorem fresh (hp : id ∉ g.paused) (hk : id ∉ g.known) : Account g id none [] False where
  active := nofun
  announced := nofun
  known h := absurd h hk
  paused h := absurd h hp

/-- A gate that remembers less. -/
theorem forget (h : Account g id state ns releasing) (hk : id ∈ g'.known → id ∈ g.known)
    (hp : id ∈ g'.paused → id ∈ g.paused) : Account g' id state ns releasing :=
  ⟨h.active, h.announced, fun hmem => h.known (hk hmem), fun hmem => h.paused (hp hmem)⟩

/-- A report about no thread, or about another one. -/
theorem admit_other (h : Account g id state ns releasing) (hid : n.thread? ≠ some id)
    (ha : g.accept n = .ok g') : Account g' id state ns releasing := by
  cases hother : n.thread? with
  | none =>
      obtain ⟨-, -, rfl⟩ | ⟨-, rfl⟩ := Gate.accept_engine hother ha
      · exact h.forget (fun hk => hk) fun hp => hp
      · exact h.forget (fun hk => hk) nofun
  | some other =>
      obtain ⟨-, -, -, rfl⟩ := Gate.accept_thread hother ha
      have hne : id ≠ other := fun he => hid (he ▸ hother)
      exact h.forget (by simp [hne]) (by simp [hne])

/-- Whoever may report is known to the target, or will be. -/
theorem there_of_accept (h : Account g id state ns releasing) (hid : n.thread? = some id)
    (ha : g.accept n = .ok g') : Gate.announces n = true ∨ settled state ns ≠ none := by
  obtain ⟨-, -, hknown, -⟩ := Gate.accept_thread hid ha
  cases hann : Gate.announces n with
  | true => exact .inl rfl
  | false => exact .inr (h.known (hknown hann))

/-- **A report is admitted and queued.** -/
theorem accepted (h : Account g id state ns releasing) (hid : n.thread? = some id)
    (ha : g.accept n = .ok g') : Account g' id state (ns ++ [n]) releasing := by
  have hthere := h.there_of_accept hid ha
  obtain ⟨-, hpaused, -, rfl⟩ := Gate.accept_thread hid ha
  refine ⟨h.active, fun hnone m hm => ?_, fun _ => ?_, fun hp => .inl ?_⟩
  · cases ns with
    | nil =>
        obtain rfl : n = m := by simpa using hm
        rw [hnone] at hthere
        exact hthere.resolve_right (· rfl)
    | cons first rest => exact h.announced hnone m (by simpa using hm)
  · rw [settled_append]
    exact Agreement.leads_ne_none hthere
  · obtain ⟨hpause, -⟩ := (Gate.mem_paused_admitted.mp hp).resolve_left hpaused
    rw [settled_append]
    exact n.leads_of_pause hpause _

/-- After the first report of a lane its thread is there. -/
theorem leads_ne_none (h : Account g id state (n :: ns) releasing) : n.leads state ≠ none := by
  apply Agreement.leads_ne_none
  cases hs : state with
  | none => exact .inl (h.announced hs n rfl)
  | some s => exact .inr (Option.some_ne_none s)

/-- **A report is admitted and dropped** because an equal one waits. -/
theorem dropped (h : Account g id state ns releasing) (hid : n.thread? = some id)
    (ha : g.accept n = .ok g') (hmem : n ∈ ns)
    (hpause : n.isPause = true → settled state ns = some .suspended) :
    Account g' id state ns releasing := by
  obtain ⟨-, hpaused, -, rfl⟩ := Gate.accept_thread hid ha
  refine ⟨h.active, h.announced, fun _ => ?_, fun hp => .inl ?_⟩
  · cases ns with
    | nil => cases hmem
    | cons first rest => exact settled_ne_none h.leads_ne_none rest
  · exact hpause ((Gate.mem_paused_admitted.mp hp).resolve_left hpaused).1

/-- **A report arrives** at the target. -/
theorem arrive (h : Account g id state (n :: ns) releasing) (hid : n.thread? = some id) :
    Account g id (n.leads state) ns releasing where
  active := Notification.isActive_leads hid h.active
  announced hnone := absurd hnone h.leads_ne_none
  known := h.known
  paused := h.paused

/-- **A decision arrives** at the target, and is on its way to the gate. -/
theorem decided (g : Gate) (id : ThreadId) (mode : Mode) (ns : List Notification) :
    Account g id (some mode.resultingState) ns True where
  active := by rintro s ⟨⟩; exact .inr mode.runs_resultingState
  announced := nofun
  known _ := settled_ne_none (Option.some_ne_none _) ns
  paused _ := .inr trivial

end Account

namespace Session

/-! ### Steps in which no pause is lost -/

/-- A pause is admitted and then dropped, although its thread is to go on after the equal one that
waits. -/
def Swallows (s : Session) (n : Notification) : Prop :=
  s.queue.dedupe = true ∧ n.isPause = true ∧ (∃ gate, s.gate.accept n = .ok gate) ∧
    ∃ before after id mode, n.thread? = some id ∧
      s.queue.events = before ++ .notification n :: after ∧
      .notification (.resumed id mode) ∈ after

/-- One step of a session as in `Proceeds`, in which no pause is lost: no notification is sent that a queue
without duplicates would swallow. -/
inductive LosslessStep : Session → Deed → Session → Prop
  | notify (s : Session) (n : Notification) (h : ¬ s.Swallows n) : LosslessStep s .outside (s.notify n).2
  | abandonPause (s : Session) (thread : ThreadId) : LosslessStep s .outside (s.abandonPause thread).2
  | call (s : Session) (c : ControlCall) : LosslessStep s .outside (c.run s)
  | take {s s' : Session} (h : s.take? = some s') : LosslessStep s .take s'
  | perform {s s' : Session} {task : Task} (h : s.perform? = some (task, s')) : LosslessStep s (.task task) s'
  | fail {s s' : Session} {task : Task} (h : s.perform? = some (task, s'))
      (hfatal : isFatal task = true) (message : String) :
      LosslessStep s (.failure task message) (s'.fail message)

theorem LosslessStep.proceeds {s s' : Session} {deed : Deed} (h : LosslessStep s deed s') : Proceeds s deed s' := by
  cases h with
  | notify n => exact .notify s n
  | abandonPause thread => exact .abandonPause s thread
  | call c => exact .call s c
  | take h => exact .take h
  | perform h => exact .perform h
  | fail h hfatal message => exact .fail h hfatal message

/-- A queue that keeps duplicates loses nothing. -/
theorem Proceeds.losslessStep {s s' : Session} {deed : Deed} (h : Proceeds s deed s')
    (hplain : s.queue.dedupe = false) : LosslessStep s deed s' := by
  cases h with
  | notify n => exact .notify s n fun hs => by simp [Swallows, hplain] at hs
  | abandonPause thread => exact .abandonPause s thread
  | call c => exact .call s c
  | take h => exact .take h
  | perform h => exact .perform h
  | fail h hfatal message => exact .fail h hfatal message

theorem Proceeds.dedupe {s s' : Session} {deed : Deed} (h : Proceeds s deed s') :
    s'.queue.dedupe = s.queue.dedupe := by
  cases h with
  | notify n =>
      obtain ⟨-, -, -, hq | hq⟩ := s.notify_frame n <;> rw [hq]
  | abandonPause thread => rfl
  | call c =>
      by_cases hc : c = .cancel
      · subst hc
        change (EventQueue.cancel _).dedupe = _
        unfold EventQueue.cancel
        split <;> rfl
      · obtain ⟨cs, hcs⟩ := ControlCall.commanded s c hc
        rw [hcs.queue]
  | take h =>
      obtain ⟨-, ⟨e, rest, -, rfl⟩ | ⟨-, rfl⟩⟩ := take?_cases h
      · rw [queue_handle]
        rfl
      · rfl
  | perform h | fail h =>
      obtain ⟨rest, -, rfl⟩ := perform?_cases h
      exact dedupe_effect _ _

/-- **Whatever happens to a session that keeps duplicates**, no pause is lost. -/
theorem lossless_of_execution {settings : DebuggerSettings} (hplain : settings.dedupeQueuedEvents = false)
    {trace : List Deed} {s : Session} (h : Execution Proceeds (create settings) trace s) :
    Execution LosslessStep (create settings) trace s ∧ s.queue.dedupe = false := by
  induction h with
  | start => exact ⟨.start, hplain⟩
  | next before last ih =>
      obtain ⟨hlossless, hdedupe⟩ := ih
      exact ⟨hlossless.next (last.losslessStep hdedupe), last.dedupe.trans hdedupe⟩

/-! ### The invariant -/

/-- Everything that holds, whatever is reported, until the queue is closed or the session is over. -/
structure Releasable (s : Session) : Prop where
  indexed : s.target.registry.Indexed
  /-- Before the engine's start is dispatched, no thread is known, and none will be. -/
  unstarted : s.target.state = .notStarted →
    (∀ id, s.target.stateOf id = none) ∧ Heralded s.queue.events ∧
      (s.gate.phase = .started → .notification .engineStarted ∈ s.queue.events)
  account : ∀ id, Account s.gate id (s.target.stateOf id) (lane id s.queue.events)
    (.release id ∈ s.worker.agenda)

/-- May anything still be reported? -/
structure IsOpen (s : Session) : Prop where
  queue : s.queue.closed = false
  target : s.target.state ≠ .terminated

theorem releasable_create (settings : DebuggerSettings) : (create settings).Releasable where
  indexed := Registry.indexed_empty
  unstarted _ := ⟨fun _ => rfl, trivial, nofun⟩
  account id := by
    have hcalm : Task.release id ∉ (create settings).worker.agenda := nofun
    rw [eq_false hcalm]
    exact Account.fresh nofun nofun

theorem own_lane (id : ThreadId) (events : List Event) : ∀ n ∈ lane id events, n.thread? = some id :=
  fun _ hn => (mem_lane.mp hn).2

/-- What is not swallowed when it is dropped leads to a pause all the same. -/
theorem settled_of_dropped {s : Session} {n : Notification} {id : ThreadId} {gate : Gate}
    (hdedupe : s.queue.dedupe = true) (hid : n.thread? = some id) (ha : s.gate.accept n = .ok gate)
    (hmem : .notification n ∈ s.queue.events) (hs : ¬ s.Swallows n) (hp : n.isPause = true)
    (state : Option ThreadState) : settled state (lane id s.queue.events) = some .suspended := by
  obtain ⟨before, after, hevents⟩ := List.append_of_mem hmem
  have hnone : ∀ mode, .resumed id mode ∉ lane id after := fun mode hm =>
    hs ⟨hdedupe, hp, ⟨gate, ha⟩, before, after, id, mode, hid, hevents, (mem_lane.mp hm).1⟩
  rw [hevents, lane_append, lane_cons_self hid, settled_append, settled_cons, n.leads_of_pause hp]
  exact settled_of_no_resumed (own_lane id after) hnone

/-- **Reporting** keeps the invariant, unless a pause is lost. -/
theorem releasable_notify {s : Session} (hopen : s.queue.closed = false) (h : s.Releasable)
    {n : Notification} (hs : ¬ s.Swallows n) : (s.notify n).2.Releasable := by
  obtain ⟨cause, -, hn⟩ | ⟨gate, hgate, hn | ⟨hmem, hn⟩⟩ := notify_cases hopen n
  · rw [hn]
    exact h
  · rw [hn]
    obtain ⟨hstarted, -⟩ := phase_of_admitted hgate
      (List.subset_append_left s.queue.events [.notification n]) (by simp)
    refine ⟨h.indexed, fun hs => ?_, fun id => ?_⟩
    · obtain ⟨hnone, hherald, hstart⟩ := h.unstarted hs
      exact ⟨hnone, heralded_admitted hgate hherald hstart, hstarted hstart⟩
    · have hon := h.account id
      by_cases hid : n.thread? = some id
      · rw [lane_append, lane_cons_self hid]
        exact hon.accepted hid hgate
      · rw [lane_append, lane_cons_of_ne hid, lane_nil, List.append_nil]
        exact hon.admit_other hid hgate
  · have hdedupe : s.queue.dedupe = true := by
      cases hplain : s.queue.dedupe with
      | true => rfl
      | false =>
          have hlength := congrArg (fun r => r.2.queue.events.length) hn
          simp [notify, hgate, EventQueue.submit, hopen, hplain] at hlength
    rw [hn]
    obtain ⟨hstarted, -⟩ := phase_of_admitted hgate (List.Subset.refl s.queue.events) hmem
    refine ⟨h.indexed, fun hs => ?_, fun id => ?_⟩
    · obtain ⟨hnone, hherald, hstart⟩ := h.unstarted hs
      exact ⟨hnone, hherald, hstarted hstart⟩
    · have hon := h.account id
      by_cases hid : n.thread? = some id
      · exact hon.dropped hid hgate (mem_lane.mpr ⟨hmem, hid⟩) fun hp =>
          settled_of_dropped hdedupe hid hgate hmem hs hp _
      · exact hon.admit_other hid hgate

/-- **Queueing commands** keeps the invariant. -/
theorem releasable_commanded {s s' : Session} {cs : List Command} (h : s.Releasable)
    (hc : s.Commanded s' cs) : s'.Releasable := by
  refine ⟨hc.target.indexed h.indexed, fun hs => ?_, fun id => ?_⟩
  · rw [hc.target.state] at hs
    obtain ⟨hnone, hherald, hstart⟩ := h.unstarted hs
    rw [hc.events, hc.gate]
    refine ⟨fun id => ?_, heralded_append hherald (.inr (heralded_commands cs)), fun hphase => ?_⟩
    · rw [hc.target.stateOf h.indexed]
      exact hnone id
    · exact List.mem_append_left _ (hstart hphase)
  · rw [hc.gate, hc.worker, hc.target.stateOf h.indexed, hc.events, lane_append, lane_commands,
      List.append_nil]
    exact h.account id

/-- A session with the same target, and no report more or less, whose gate remembers less. -/
theorem Releasable.forget {s s' : Session} (h : s.Releasable) (ht : s'.target = s.target)
    (hq : s'.queue = s.queue) (hphase : s'.gate.phase = s.gate.phase)
    (hknown : s'.gate.known ⊆ s.gate.known) (hpaused : s'.gate.paused ⊆ s.gate.paused)
    (hreleases : ∀ id, .release id ∈ s.worker.agenda → .release id ∈ s'.worker.agenda ∨
      id ∉ s'.gate.paused) : s'.Releasable := by
  refine ⟨ht ▸ h.indexed, fun hs => ?_, fun id => ?_⟩
  · rw [hphase, hq, ht]
    exact h.unstarted (ht ▸ hs)
  · obtain ⟨hactive, hannounced, hk, hp⟩ := h.account id
    rw [ht, hq]
    refine ⟨hactive, hannounced, fun hmem => hk (hknown hmem), fun hmem => ?_⟩
    rcases hp (hpaused hmem) with hsettled | hrelease
    · exact .inl hsettled
    · exact .inr ((hreleases id hrelease).resolve_right (· hmem))

/-- **Doing a task** keeps the invariant, as long as the queue is open. -/
theorem releasable_effect {s : Session} {task : Task} {rest : List Task} (h : s.Releasable)
    (hagenda : s.worker.agenda = task :: rest) (hopen : task ≠ .closeQueue) :
    ((s.withAgenda rest).effect task).Releasable := by
  have hrest (htask : ∀ id, task ≠ .release id) :
      ∀ id, .release id ∈ s.worker.agenda → .release id ∈ rest := fun id hmem => by
    rw [hagenda] at hmem
    exact (List.mem_cons.mp hmem).resolve_left (Ne.symm (htask id))
  have hsame (htask : ∀ id, task ≠ .release id) : (s.withAgenda rest).Releasable :=
    h.forget rfl rfl rfl (List.Subset.refl _) (List.Subset.refl _) fun id hmem => .inl (hrest htask id hmem)
  cases task with
  | closeQueue => exact absurd rfl hopen
  | callback | lastCallback | command | forward | forwardClosed => exact hsame nofun
  | announceClosed | finish =>
      exact (hsame nofun).forget rfl rfl rfl (List.Subset.refl _) (List.Subset.refl _) fun _ => .inl
  | releaseAll | closeGate =>
      exact (hsame nofun).forget rfl rfl rfl (List.Subset.refl _) (List.nil_subset _) fun _ => .inl
  | followUp c =>
      obtain ⟨cs, -, hc, -⟩ := (s.withAgenda rest).commanded_submit c
      exact releasable_commanded (hsame nofun) hc
  | release thread =>
      refine h.forget rfl rfl rfl (List.Subset.refl _) (fun _ hp => (List.mem_filter.mp hp).1)
        fun id hmem => ?_
      rw [hagenda] at hmem
      rcases List.mem_cons.mp hmem with he | hmem
      · obtain rfl := Task.release.inj he
        exact .inr fun hp => (Gate.mem_paused_release.mp hp).2 rfl
      · exact .inl hmem

/-- A report that waits in front of the queue of a session that goes on is about no thread, or the session
runs. -/
theorem Releasable.running_of_head {s : Session} (h : s.Releasable) (hlive : s.target.state ≠ .terminated)
    {n : Notification} {rest : List Event} (hevents : s.queue.events = .notification n :: rest)
    {id : ThreadId} (hid : n.thread? = some id) : s.target.state = .running := by
  cases hs : s.target.state with
  | terminated => exact absurd hs hlive
  | running => rfl
  | notStarted =>
      obtain ⟨-, hherald, -⟩ := h.unstarted hs
      rw [hevents] at hherald
      exact absurd hherald (not_heralded hid rest)

/-- Handling a report keeps the invariant. -/
theorem releasable_handle_notification {s : Session} (h : s.Releasable)
    (hlive : s.target.state ≠ .terminated) (hidle : s.worker.agenda = []) {n : Notification}
    {rest : List Event} (hevents : s.queue.events = .notification n :: rest)
    (hstill : (s.targetAfter (.notification n)).state ≠ .terminated) :
    ((s.withEvents rest).handle (.notification n)).Releasable := by
  have hend : n ≠ .engineTerminated := by
    rintro rfl
    exact hstill (Target.state_handleNotification_engineTerminated _ _)
  have hnone (id) : .release id ∉ s.tasksAfter (.notification n) := fun hmem =>
    (ordinary_notificationTasks hend _ _ hmem).2 id rfl
  have hon (id) : Account s.gate id (s.target.stateOf id) (lane id s.queue.events) False := by
    simpa only [hidle, List.not_mem_nil] using h.account id
  rw [hevents] at hon
  rw [handle_eq, targetAfter_withEvents, tasksAfter_withEvents]
  cases hid : n.thread? with
  | some id =>
      have hrun := h.running_of_head hlive hevents hid
      obtain ⟨hindexed, hstate, hothers⟩ := Target.report_frame h.indexed s.breakpoints hid
      refine ⟨hindexed, fun hs => ?_, fun other => ?_⟩
      · rw [targetAfter, hstate, hrun] at hs
        cases hs
      · have hother := hon other
        show Account s.gate other ((s.targetAfter (.notification n)).stateOf other) (lane other rest)
          (.release other ∈ s.tasksAfter (.notification n))
        rw [eq_false (hnone other)]
        by_cases he : other = id
        · subst he
          rw [lane_cons_self hid] at hother
          -- The thread announces itself, or the target knows it already.
          have hthere : Gate.announces n = true ∨ s.target.stateOf other ≠ none := by
            cases hs : s.target.stateOf other with
            | none => exact .inl (hother.announced hs n rfl)
            | some state => exact .inr (Option.some_ne_none state)
          rw [targetAfter, Target.stateOf_report h.indexed hrun s.breakpoints hid hother.active hthere]
          exact hother.arrive hid
        · have hne : n.thread? ≠ some other := fun ho => he (Option.some.inj (ho.symm.trans hid))
          rw [lane_cons_of_ne hne] at hother
          rwa [targetAfter, Target.stateOf, hothers other he]
  | none =>
      obtain rfl := n.eq_engineStarted hid hend
      have hsame := Target.handleNotification_engineStarted hlive s.breakpoints
      refine ⟨?_, fun hs => ?_, fun other => ?_⟩
      · exact hsame.1 ▸ h.indexed
      · cases hsame.2.symm.trans hs
      · have hstate : (s.target.handleNotification s.breakpoints .engineStarted).2.stateOf other =
            s.target.stateOf other := by
          simp only [Target.stateOf, Target.thread?, hsame.1]
        show Account s.gate other ((s.targetAfter (.notification .engineStarted)).stateOf other)
          (lane other rest) (.release other ∈ s.tasksAfter (.notification .engineStarted))
        rw [eq_false (hnone other), targetAfter, hstate]
        exact hon other

/-- Handling a command keeps the invariant. -/
theorem releasable_handle_command {s : Session} (h : s.Releasable)
    (hlive : s.target.state ≠ .terminated) (hidle : s.worker.agenda = []) {c : Command}
    {rest : List Event} (hevents : s.queue.events = .command c :: rest)
    (hstill : (s.targetAfter (.command c)).state ≠ .terminated) :
    ((s.withEvents rest).handle (.command c)).Releasable := by
  have hterm : s.target.isTerminated = false := by simpa [Target.isTerminated] using hlive
  have hon (id) : Account s.gate id (s.target.stateOf id) (lane id s.queue.events) False := by
    simpa only [hidle, List.not_mem_nil] using h.account id
  rw [hevents] at hon
  -- Striking a command off the queue takes nothing from any lane.
  have hstrike (tasks : List Task) : ((s.withEvents rest).withAgenda tasks).Releasable := by
    refine ⟨h.indexed, fun hs => ?_, fun id => ?_⟩
    · obtain ⟨hnone, hherald, hstart⟩ := h.unstarted hs
      rw [hevents] at hherald hstart
      refine ⟨hnone, hherald, fun hphase => ?_⟩
      rcases List.mem_cons.mp (hstart hphase) with he | hmem
      · cases he
      · exact hmem
    · obtain ⟨hactive, hannounced, hknown, hpaused⟩ := hon id
      exact ⟨hactive, hannounced, hknown, fun hmem => .inl ((hpaused hmem).resolve_right fun hf => hf)⟩
  rw [handle_eq, targetAfter_withEvents, tasksAfter_withEvents]
  have hsame {s' : Session} (hg : s'.gate = s.gate) (hq : s'.queue = (s.withEvents rest).queue)
      (ht : s'.target = s.target) : s'.Releasable :=
    (hstrike s'.worker.agenda).forget ht hq (by rw [hg]; rfl) (by rw [hg]; exact List.Subset.refl _)
      (by rw [hg]; exact List.Subset.refl _) fun _ => .inl
  cases c with
  | terminate | setBreakpoint =>
      refine hsame rfl rfl ?_
      simp [targetAfter, Target.handleCommand, hterm]
  | disconnect => exact absurd (Target.state_handleCommand_disconnect hlive) hstill
  | resume id mode =>
      by_cases hs : s.target.stateOf id = some .suspended
      · obtain ⟨next, hm, hnext, heffects⟩ := Target.moves_of_resume h.indexed hterm mode hs
        have htasks : .release id ∈ s.tasksAfter (.command (.resume id mode)) := by
          rw [tasksAfter, heffects]
          exact List.mem_cons_self
        refine ⟨hm.indexed, fun hstart => ?_, fun other => ?_⟩
        · rw [targetAfter, hm.state] at hstart
          have hnone := (h.unstarted hstart).1 id
          rw [hs] at hnone
          cases hnone
        · by_cases he : other = id
          · subst he
            show Account s.gate other ((s.targetAfter (.command (.resume other mode))).stateOf other)
              (lane other rest) (.release other ∈ s.tasksAfter (.command (.resume other mode)))
            rw [eq_true htasks, targetAfter, hm.stateOf_self, hnext]
            exact Account.decided s.gate other mode (lane other rest)
          · obtain ⟨hactive, hannounced, hknown, hpaused⟩ := hon other
            show Account s.gate other ((s.targetAfter (.command (.resume id mode))).stateOf other)
              (lane other rest) _
            rw [targetAfter, hm.stateOf_of_ne he]
            exact ⟨hactive, hannounced, hknown, fun hmem => .inl ((hpaused hmem).resolve_right fun hf => hf)⟩
      · refine hsame rfl rfl ?_
        rw [targetAfter, Target.handleCommand_resume_of_ne mode hs]

/-! ### Every step -/

/-- Only a queue that was cancelled before stays open when it is cancelled. -/
theorem cancel_of_open {s : Session} (h : (ControlCall.run s .cancel).queue.closed = false) :
    ControlCall.run s .cancel = s := by
  change (EventQueue.cancel _).closed = false at h
  unfold EventQueue.cancel at h
  split at h
  · next hcancelled => simp [ControlCall.run, cancel, EventQueue.cancel, hcancelled]
  · cases h

/-- What is closed or over stays so. -/
theorem Proceeds.isOpen {s s' : Session} {deed : Deed} (h : Proceeds s deed s') (hopen : s'.IsOpen) :
    s.IsOpen := by
  obtain ⟨hqueue, htarget⟩ := hopen
  cases h with
  | notify n =>
      obtain ⟨ht, -, -, hq⟩ := s.notify_frame n
      refine ⟨?_, ht ▸ htarget⟩
      rcases hq with hq | hq <;> simpa only [hq] using hqueue
  | abandonPause thread => exact ⟨hqueue, htarget⟩
  | call c =>
      refine ⟨?_, (s.rereads_call c).state ▸ htarget⟩
      by_cases hc : c = .cancel
      · subst hc
        rwa [cancel_of_open hqueue] at hqueue
      · obtain ⟨cs, hcs⟩ := ControlCall.commanded s c hc
        rw [hcs.queue] at hqueue
        exact hqueue
  | take h =>
      obtain ⟨-, ⟨e, rest, -, rfl⟩ | ⟨-, rfl⟩⟩ := take?_cases h
      · refine ⟨by simpa [withEvents] using hqueue, fun hterm => htarget ?_⟩
        rw [target_handle, targetAfter_withEvents, targetAfter_of_terminated hterm, hterm]
      · exact ⟨hqueue, htarget⟩
  | @perform _ task h =>
      obtain ⟨rest, -, rfl⟩ := perform?_cases h
      rw [target_effect] at htarget
      by_cases hclose : task = .closeQueue
      · subst hclose
        cases hqueue
      · rw [closed_effect _ hclose] at hqueue
        exact ⟨hqueue, htarget⟩
  | fail h hfatal message => exact absurd (Target.state_terminate _ _) htarget

/-- **Every step in which no pause is lost keeps the invariant.** -/
theorem releasable_losslessStep {s s' : Session} {deed : Deed} (h : LosslessStep s deed s') (hopen : s'.IsOpen)
    (hs : s.Releasable) : s'.Releasable := by
  obtain ⟨hqueue, hlive⟩ := h.proceeds.isOpen hopen
  cases h with
  | notify n hn => exact releasable_notify hqueue hs hn
  | abandonPause thread =>
      exact hs.forget rfl rfl rfl (List.Subset.refl _) (fun _ hp => (List.mem_filter.mp hp).1)
        fun _ => .inl
  | call c =>
      by_cases hc : c = .cancel
      · subst hc
        rwa [cancel_of_open hopen.queue]
      · obtain ⟨cs, hcs⟩ := ControlCall.commanded s c hc
        exact releasable_commanded hs hcs
  | take h =>
      obtain ⟨hidle, ⟨e, rest, hevents, rfl⟩ | ⟨-, rfl⟩⟩ := take?_cases h
      · have hstill := hopen.target
        rw [target_handle, targetAfter_withEvents] at hstill
        cases e with
        | notification n => exact releasable_handle_notification hs hlive hidle hevents hstill
        | command c => exact releasable_handle_command hs hlive hidle hevents hstill
      · refine hs.forget rfl rfl rfl (List.Subset.refl _) (List.Subset.refl _) fun id hmem => ?_
        rw [hidle] at hmem
        cases hmem
  | @perform _ task h =>
      obtain ⟨rest, hagenda, rfl⟩ := perform?_cases h
      refine releasable_effect hs hagenda ?_
      rintro rfl
      cases hopen.queue
  | fail h hfatal message => exact absurd (Target.state_terminate _ _) hopen.target

theorem releasable_of_execution {settings : DebuggerSettings} {trace : List Deed} {s : Session}
    (h : Execution LosslessStep (create settings) trace s) (hopen : s.IsOpen) : s.Releasable :=
  h.state_invariant (P := fun s => s.IsOpen → s.Releasable) (fun _ => releasable_create settings)
    (fun ih hstep hopen => releasable_losslessStep hstep hopen (ih (hstep.proceeds.isOpen hopen))) hopen

/-! ### The decision -/

/-- A step after which the gate still holds a thread. -/
def Withholds (id : ThreadId) (s : Session) (deed : Deed) (s' : Session) : Prop :=
  Proceeds s deed s' ∧ id ∈ s'.gate.paused

/-- **A decision on a thread frees it**: as long as the thread is held, the decision waits and makes sense,
so that its dispatch will free the thread, or the gate is just about to learn of one. -/
def Frees (s : Session) (id : ThreadId) (mode : Mode) : Prop :=
  ∀ {later : List Deed} {s' : Session}, Execution (Withholds id) s later s' → s'.IsOpen →
    (.command (.resume id mode) ∈ s'.queue.events ∧ s'.target.stateOf id = some .suspended ∧
      ∀ tasks next, s'.dispatch? = some (tasks, next) →
        s'.queue.events.head? = some (.command (.resume id mode)) → id ∉ next.gate.paused) ∨
    .release id ∈ s'.worker.agenda

/-- What is left of a decision that makes sense: first of all the gate learns of it. -/
theorem tasksAfter_resume {s : Session} (hr : s.target.registry.Indexed)
    (hlive : s.target.state ≠ .terminated) {id : ThreadId} (mode : Mode)
    (hs : s.target.stateOf id = some .suspended) :
    s.tasksAfter (.command (.resume id mode)) =
      [.release id, .callback (.threadStateChanged id mode.resultingState),
        .command (.resume id mode), .forward (.resume id mode)] := by
  have hterm : s.target.isTerminated = false := by simpa [Target.isTerminated] using hlive
  obtain ⟨-, -, -, heffects⟩ := Target.moves_of_resume hr hterm mode hs
  rw [tasksAfter, heffects]
  rfl

/-- The dispatch of such a decision frees its thread. -/
theorem free_of_dispatch {s next : Session} {tasks : List Task} (hlive : s.target.state ≠ .terminated)
    (hr : s.target.registry.Indexed) {id : ThreadId} {mode : Mode}
    (hs : s.target.stateOf id = some .suspended) (h : s.dispatch? = some (tasks, next))
    (hhead : s.queue.events.head? = some (.command (.resume id mode))) : id ∉ next.gate.paused := by
  obtain ⟨taken, htake, hfinish⟩ := Option.map_eq_some_iff.mp h
  obtain rfl : taken.finishAgenda.2 = next := congrArg Prod.snd hfinish
  obtain ⟨-, ⟨e, rest, hevents, rfl⟩ | ⟨-, rfl⟩⟩ := take?_cases htake
  · rw [hevents] at hhead
    obtain rfl := Option.some.inj hhead
    rw [finishAgenda_eq, agenda_handle, tasksAfter_withEvents, tasksAfter_resume hr hlive mode hs]
    exact fun hmem => (Gate.mem_paused_release.mp hmem).2 rfl
  · -- A cancelled queue hands out nothing, and closing the gate frees everyone.
    exact List.not_mem_nil

/-- While a session runs and its queue is open, a suspended thread may be resumed in every mode, and the
command waits. -/
theorem resume_of_suspended {s : Session} (hqueue : s.queue.closed = false)
    (hrun : s.target.state = .running) {id : ThreadId} (hs : s.target.stateOf id = some .suspended)
    (mode : Mode) : (s.resume id mode).1 = .ok () ∧
      .command (.resume id mode) ∈ (s.resume id mode).2.queue.events := by
  obtain ⟨thread, hthread, hstate⟩ := Target.exists_thread_of_stateOf hs
  have hresume : s.resume id mode = s.order (.resume id mode) := by
    simp [resume, isTerminated, Target.isTerminated, hrun, hthread, DebugThread.isSuspended, hstate]
  rw [hresume]
  unfold order submit EventQueue.submit
  rw [if_neg (by simp [hqueue])]
  by_cases hd : (s.queue.dedupe && decide (.command (.resume id mode) ∈ s.queue.events)) = true
  · rw [if_pos hd]
    exact ⟨rfl, of_decide_eq_true (Bool.and_eq_true_iff.mp hd).2⟩
  · rw [if_neg hd]
    exact ⟨rfl, List.mem_append_right _ List.mem_cons_self⟩

/-- A thread that is held and has nothing but its decision to wait for. -/
structure Decided (s : Session) (id : ThreadId) (mode : Mode) : Prop where
  indexed : s.target.registry.Indexed
  started : s.target.state = .running
  /-- The gate remembers the pause. -/
  held : id ∈ s.gate.paused
  /-- The decision waits, and nothing changes the thread before it arrives; or it is being delivered. -/
  pending : (.command (.resume id mode) ∈ s.queue.events ∧ s.target.stateOf id = some .suspended ∧
      ∀ n ∈ lane id s.queue.events, n.Quiet) ∨ .release id ∈ s.worker.agenda

/-- **Handling an event** leaves a thread that is held suspended, or frees it. -/
theorem decided_handle {s : Session} (hlive : s.target.state ≠ .terminated) {id : ThreadId} {mode : Mode}
    (h : s.Decided id mode) (hidle : s.worker.agenda = []) {e : Event} {rest : List Event}
    (hevents : s.queue.events = e :: rest) (hstill : (s.targetAfter e).state ≠ .terminated) :
    ((s.withEvents rest).handle e).Decided id mode := by
  have hrun := h.started
  obtain ⟨hmem, hs, hquiet⟩ := h.pending.resolve_right (by simp [hidle])
  rw [hevents] at hmem hquiet
  rw [handle_eq, targetAfter_withEvents, tasksAfter_withEvents]
  cases e with
  | notification n =>
      have hwait := (List.mem_cons.mp hmem).resolve_left nofun
      by_cases hid : n.thread? = some id
      -- What is queued of the thread before its decision leaves it suspended.
      · obtain ⟨hindexed, hstate, -⟩ := Target.report_frame h.indexed s.breakpoints hid
        rw [lane_cons_self hid] at hquiet
        obtain ⟨hfirst, hquiet⟩ := List.forall_mem_cons.mp hquiet
        have hactive : ∀ state ∈ s.target.stateOf id, state.IsActive := by
          rw [hs]
          rintro state ⟨⟩
          exact .inl rfl
        have hthere : s.target.stateOf id ≠ none := by
          rw [hs]
          exact Option.some_ne_none _
        have hs' := Target.stateOf_report h.indexed hrun s.breakpoints hid hactive (.inr hthere)
        rw [hfirst, hs] at hs'
        exact ⟨hindexed, hstate.trans hrun, h.held, .inl ⟨hwait, hs', hquiet⟩⟩
      · obtain ⟨hindexed, hstate, hsame⟩ := Target.report_other h.indexed s.breakpoints hid hstill
        rw [lane_cons_of_ne hid] at hquiet
        refine ⟨hindexed, hstate hrun, h.held, .inl ⟨hwait, ?_, hquiet⟩⟩
        exact (congrArg (Option.map DebugThread.state) hsame).trans hs
  | command c =>
      have hc : c ≠ .disconnect := by
        rintro rfl
        exact hstill (Target.state_handleCommand_disconnect hlive)
      obtain ⟨hindexed, hstate, hsame⟩ := Target.command_other h.indexed hc
      -- Any decision on the thread brings its release; other commands leave it alone.
      by_cases hfrees : ∃ other, c = .resume id other
      · obtain ⟨other, rfl⟩ := hfrees
        refine ⟨hindexed, hstate.trans hrun, h.held, .inr ?_⟩
        show Task.release id ∈ s.tasksAfter (.command (.resume id other))
        rw [tasksAfter_resume h.indexed hlive other hs]
        exact List.mem_cons_self
      · have hne : ∀ other, c ≠ .resume id other := fun other hc => hfrees ⟨other, hc⟩
        have hwait : .command (.resume id mode) ∈ rest :=
          (List.mem_cons.mp hmem).resolve_left fun he => hne mode (Event.command.inj he).symm
        refine ⟨hindexed, hstate.trans hrun, h.held, .inl ⟨hwait, ?_, hquiet⟩⟩
        exact (congrArg (Option.map DebugThread.state) (hsame id hne)).trans hs

/-- A thread that is held stays so while its target shows the same, nothing is reported about it, and no
decision on it is struck off. -/
theorem Decided.carry {s s' : Session} {id : ThreadId} {mode : Mode} (h : s.Decided id mode)
    (ht : s.target.Resembles s'.target) (hheld : id ∈ s'.gate.paused) {later : List Event}
    (hevents : s'.queue.events = s.queue.events ++ later) (hlane : lane id later = [])
    (hagenda : .release id ∈ s.worker.agenda → .release id ∈ s'.worker.agenda) :
    s'.Decided id mode := by
  refine ⟨ht.indexed h.indexed, ht.state.trans h.started, hheld, ?_⟩
  rcases h.pending with ⟨hmem, hs, hquiet⟩ | hrelease
  · refine .inl ⟨?_, (ht.stateOf h.indexed id).trans hs, ?_⟩
    · rw [hevents]
      exact List.mem_append_left _ hmem
    · rwa [hevents, lane_append, hlane, List.append_nil]
  · exact .inr (hagenda hrelease)

/-- **Every step that leaves a thread held** leaves its decision as it is, or makes it. -/
theorem decided_withholds {s s' : Session} {deed : Deed} {id : ThreadId} {mode : Mode}
    (h : Withholds id s deed s') (hopen : s'.IsOpen) (hd : s.Decided id mode) : s'.Decided id mode := by
  obtain ⟨hstep, hheld⟩ := h
  obtain ⟨hqueue, hlive⟩ := hstep.isOpen hopen
  have hself := (List.append_nil s.queue.events).symm
  -- The decision stays queued or in hand as long as the gate holds the pause; an open session does not close
  -- its queue.
  cases hstep with
  | notify n =>
      obtain ⟨cause, -, hn⟩ | ⟨gate, hgate, hn | ⟨-, hn⟩⟩ := notify_cases hqueue n
      · rwa [hn]
      · rw [hn] at hheld ⊢
        have hid : n.thread? ≠ some id := fun hid => (Gate.accept_thread hid hgate).2.1 hd.held
        exact hd.carry (.refl _) hheld rfl (lane_cons_of_ne hid []) fun hr => hr
      · rw [hn] at hheld ⊢
        exact hd.carry (.refl _) hheld hself rfl fun hr => hr
  | abandonPause thread => exact hd.carry (.refl _) hheld hself rfl fun hr => hr
  | call c =>
      by_cases hc : c = .cancel
      · subst hc
        rwa [cancel_of_open hopen.queue]
      · obtain ⟨cs, hcs⟩ := ControlCall.commanded s c hc
        exact hd.carry hcs.target hheld hcs.events (lane_commands id cs) fun hr => by rwa [hcs.worker]
  | take htake =>
      obtain ⟨hidle, ⟨e, rest, hevents, rfl⟩ | ⟨-, rfl⟩⟩ := take?_cases htake
      · have hstill := hopen.target
        rw [target_handle, targetAfter_withEvents] at hstill
        exact decided_handle hlive hd hidle hevents hstill
      · exact hd.carry (.refl _) hheld hself rfl fun hr => by simp [hidle] at hr
  | @perform _ task hperform =>
      obtain ⟨rest, hagenda, rfl⟩ := perform?_cases hperform
      have hrest : task ≠ .release id → .release id ∈ s.worker.agenda → .release id ∈ rest := by
        intro hne hr
        rw [hagenda] at hr
        exact (List.mem_cons.mp hr).resolve_left hne.symm
      cases task with
      | closeQueue => cases hopen.queue
      | callback | lastCallback | command | forward | forwardClosed | announceClosed | finish | releaseAll
      | closeGate => exact hd.carry (.refl _) hheld hself rfl (hrest nofun)
      | release thread =>
          refine hd.carry (.refl _) hheld hself rfl (hrest ?_)
          rintro ⟨⟩
          -- The pause would be released.
          exact (Gate.mem_paused_release.mp hheld).2 rfl
      | followUp c =>
          obtain ⟨cs, -, hc, -⟩ := (s.withAgenda rest).commanded_submit c
          refine hd.carry hc.target hheld hc.events (lane_commands id cs) fun hr => ?_
          rw [agenda_effect]
          exact hrest nofun hr
  | fail hperform hfatal message => exact absurd (Target.state_terminate _ _) hopen.target

/-- A thread that has nothing but its decision to wait for is freed by it. -/
theorem Decided.frees {s : Session} {id : ThreadId} {mode : Mode} (h : s.Decided id mode) :
    s.Frees id mode := by
  intro later s' hrun hopen
  have hd : s'.Decided id mode := hrun.state_invariant (P := fun s => s.IsOpen → s.Decided id mode)
    (fun _ => h) (fun ih hstep hopen => decided_withholds hstep hopen (ih (hstep.1.isOpen hopen))) hopen
  rcases hd.pending with ⟨hmem, hs, -⟩ | hrelease
  · exact .inl ⟨hmem, hs, fun tasks next hdispatch hhead =>
      free_of_dispatch hopen.target hd.indexed hs hdispatch hhead⟩
  · exact .inr hrelease

end Session

/-! ### The main result -/

open Session

/-- **A reported pause can always be released.** While a session runs and its queue is open, every thread
that the gate holds has a pause that still waits to be dispatched, or its decision is on its way from the
dispatcher to the gate, or it is suspended: then it may be resumed in every mode, the command waits, and its
dispatch frees the thread. -/
theorem pause_is_releasable {settings : DebuggerSettings} {trace : List Deed} {s : Session}
    (h : Execution LosslessStep (create settings) trace s) (hqueue : s.queue.closed = false)
    (hrun : s.target.state = .running) {id : ThreadId} (hid : id ∈ s.gate.paused) :
    (∃ n, .notification n ∈ s.queue.events ∧ n.isPause = true ∧ n.thread? = some id) ∨
      .release id ∈ s.worker.agenda ∨
      (s.target.stateOf id = some .suspended ∧ ∀ mode, (s.resume id mode).1 = .ok () ∧
        .command (.resume id mode) ∈ (s.resume id mode).2.queue.events ∧
        (s.resume id mode).2.Frees id mode) := by
  have hopen : s.IsOpen := ⟨hqueue, by rw [hrun]; nofun⟩
  have hr := releasable_of_execution h hopen
  rcases (hr.account id).paused hid with hsettled | hrelease
  · by_cases hpause : ∃ n ∈ lane id s.queue.events, n.isPause = true
    · obtain ⟨n, hn, hp⟩ := hpause
      obtain ⟨hmem, hthread⟩ := mem_lane.mp hn
      exact .inl ⟨n, hmem, hp, hthread⟩
    · have hnone : ∀ n ∈ lane id s.queue.events, n.isPause = false := fun n hn =>
        Bool.eq_false_iff.mpr fun hp => hpause ⟨n, hn, hp⟩
      obtain ⟨hs, hquiet⟩ := suspended_of_settled (own_lane id _) hnone hsettled
      refine .inr (.inr ⟨hs, fun mode => ?_⟩)
      obtain ⟨hreply, hmem⟩ := resume_of_suspended hqueue hrun hs mode
      obtain ⟨cs, -, hc⟩ := s.commanded_resume id mode
      refine ⟨hreply, hmem, Decided.frees ⟨hc.target.indexed hr.indexed, ?_, ?_, .inl ⟨hmem, ?_, ?_⟩⟩⟩
      · exact hc.target.state.trans hrun
      · rwa [hc.gate]
      · exact (hc.target.stateOf hr.indexed id).trans hs
      · rwa [hc.events, lane_append, lane_commands, List.append_nil]
  · exact .inr (.inl hrelease)

namespace Session

/-- A session in which thread 1 has stopped. -/
def stopped : Session :=
  Nat.repeat stepped 10 (greeted.notify (.suspended ⟨1⟩ [] .clientRequest)).2

/-- The thread that has stopped may be resumed, and is freed by it. -/
theorem pause_is_releasable_stopped : (stopped.resume ⟨1⟩ .resume).1 = .ok () ∧
    (stopped.resume ⟨1⟩ .resume).2.Frees ⟨1⟩ .resume := by
  obtain ⟨before, hgreeted, -⟩ := execution_greeted
  obtain ⟨last, h, -⟩ :=
    execution_of_stepped (hgreeted.next (.notify _ (.suspended ⟨1⟩ [] .clientRequest))) 10
  have hempty : stopped.queue.events = [] := by decide +kernel
  have hidle : stopped.worker.agenda = [] := by decide +kernel
  rcases pause_is_releasable (lossless_of_execution rfl h).1 (by decide +kernel) (by decide +kernel)
      (show (⟨1⟩ : ThreadId) ∈ stopped.gate.paused by decide +kernel) with
    ⟨n, hn, -⟩ | hrelease | ⟨-, hresume⟩
  · exact absurd (hempty ▸ hn) List.not_mem_nil
  · exact absurd (hidle ▸ hrelease) List.not_mem_nil
  · exact ⟨(hresume .resume).1, (hresume .resume).2.2⟩

/-- A session that drops duplicates, after thread 1 was let go on for the first time. -/
def choosy : Session :=
  let script : Snapshot := { id := ⟨1⟩, title := "a", source := "print 1", resource := some "a" }
  Nat.repeat stepped 10 ((Nat.repeat stepped 2
    ((create { dedupeQueuedEvents := true }).notify .engineStarted).2).notify
      (.scriptReady ⟨1⟩ script true)).2

/-- The same way to stop, every time. -/
def sameStop : Notification :=
  .suspended ⟨1⟩ [] .clientRequest

/-- The thread stopped and gave up on that pause, went on, and stopped in the same way again, before any of
this was dispatched. -/
def stuck : Session :=
  Nat.repeat stepped 10
    ((((choosy.notify sameStop).2.abandonPause ⟨1⟩).2.notify (.resumed ⟨1⟩ .resume)).2.notify sameStop).2

/-- Nobody failed on the way there. -/
theorem execution_stuck : ∃ trace, Execution Proceeds (create { dedupeQueuedEvents := true }) trace stuck ∧
    ∀ task message, .failure task message ∉ trace := by
  obtain ⟨first, hstarted, hfirst⟩ := execution_of_stepped
    (.next .start (.notify (create { dedupeQueuedEvents := true }) .engineStarted)) 2
  obtain ⟨second, hchoosy, hsecond⟩ : ∃ deeds,
      Execution Proceeds (create { dedupeQueuedEvents := true })
        (([] ++ [.outside] ++ first ++ [.outside]) ++ deeds) choosy ∧
      ∀ task message, .failure task message ∉ deeds :=
    execution_of_stepped (hstarted.next (.notify _ _)) 10
  have hgiveUp := (hchoosy.next (.notify _ sameStop)).next (.abandonPause _ ⟨1⟩)
  have hagain := (hgiveUp.next (.notify _ (.resumed ⟨1⟩ .resume))).next (.notify _ sameStop)
  obtain ⟨last, h, hlast⟩ := execution_of_stepped hagain 10
  refine ⟨_, h, fun task message hmem => ?_⟩
  simp [hfirst, hsecond, hlast] at hmem

/-- **A pause that is lost**: nothing is left to do, and every report about the thread is refused because
of its pause, and every decision because it runs. -/
theorem pause_is_stuck : (∃ trace, Execution Proceeds (create { dedupeQueuedEvents := true }) trace stuck ∧
      ∀ task message, .failure task message ∉ trace) ∧
    stuck.queue.closed = false ∧ stuck.target.state = .running ∧ (⟨1⟩ : ThreadId) ∈ stuck.gate.paused ∧
    stuck.queue.events = [] ∧ stuck.worker.agenda = [] ∧ stuck.target.stateOf ⟨1⟩ = some .resumed ∧
    (stuck.resume ⟨1⟩ .resume).1 = .error (.invalidTransition ⟨1⟩ .resumed "resume") ∧
    (stuck.notify (.stackFrames ⟨1⟩ [])).1 = .error (.pauseInFlight ⟨1⟩) :=
  ⟨execution_stuck, by decide +kernel, by decide +kernel, by decide +kernel, by decide +kernel,
    by decide +kernel, by decide +kernel, rfl, rfl⟩

end Session

end Pausepoint
