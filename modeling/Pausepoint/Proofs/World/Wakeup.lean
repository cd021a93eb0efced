import Pausepoint.Proofs.World.Wakeful

/-!
# Pausepoint.Proofs.World.Wakeup

No wake-up is lost.

`no_lost_wakeup` is the main result, for any number of threads whose calls, one at a time,
interleave with the dispatcher and the control side:

* a decision that the dispatcher hands to the engine finds the call of its thread waiting, and
  its slot empty; and the decisions that calls return with are, in order, all that were handed
  over, but for the last one while its call is about to return;
* whenever nothing is left to dispatch in a session that runs, a call that still waits stops at
  a line, its thread is suspended, and the thread may be resumed in every mode; the dispatcher
  alone then brings the decision to the call, which returns.

Nobody ends the session by a command, nobody cancels it, and calls wait without a bound.
-/

namespace Pausepoint

namespace World

/-! ### Decisions handed over and returned with -/

/-- The decision on a thread that a move hands to the engine. -/
def Act.handed (thread : ThreadId) : Act → List Mode
  | .dispatch (some (.forward (.resume id mode))) => if id = thread then [mode] else []
  | _ => []

/-- The decision with which a move lets a call of a thread return. -/
def Act.returned (thread : ThreadId) : Act → List Mode
  | .step id (some (.confirming mode)) (some (.returned (.ok ()))) =>
      if id = thread then [mode] else []
  | _ => []

/-- The decision with which a call of a thread is about to return: it has taken it up, or it is
in its slot. -/
def pending (slot : Option (Option Mode)) : Option Phase → List Mode
  | some (.confirming mode) => [mode]
  | _ => slot.join.toList

/-- The decisions on a thread that were handed over so far. -/
def handedTo (thread : ThreadId) (trace : List Act) : List Mode :=
  trace.flatMap (Act.handed thread)

/-- The decisions that calls of a thread returned with so far. -/
def returnedWith (thread : ThreadId) (trace : List Act) : List Mode :=
  trace.flatMap (Act.returned thread)

theorem handedTo_snoc (thread : ThreadId) (trace : List Act) (act : Act) :
    handedTo thread (trace ++ [act]) = handedTo thread trace ++ act.handed thread := by
  simp [handedTo]

theorem returnedWith_snoc (thread : ThreadId) (trace : List Act) (act : Act) :
    returnedWith thread (trace ++ [act]) = returnedWith thread trace ++ act.returned thread := by
  simp [returnedWith]

/-- What is about to be returned with, in a world. -/
def pendingOf (w : World) (thread : ThreadId) : List Mode :=
  pending (w.engine.slots.get? thread) (phaseOf w.jobs thread)

/-- A decision that is handed over finds a call that waits, with an empty slot. -/
theorem handed_finds {w : World} (h : w.Wakeful) {session : Session} {thread : ThreadId} {mode : Mode}
    (hs : w.session.perform? = some (.forward (.resume thread mode), session)) :
    w.engine.slots.get? thread = some none ∧ Waits (phaseOf w.jobs thread) := by
  have hhanding : w.session.Handing thread :=
    ((Session.handing_of_forward hs h.forwards_short thread).2).mpr ⟨mode, rfl⟩
  exact (h.shakesHands thread).handed hhanding

/-- What a step of a call does to what is about to be returned with. -/
theorem pending_step {b b' : Bridge} {thread : ThreadId} {phase phase' : Option Phase}
    (hcall : CallStep b thread phase b' phase') (hgave : phase.any Phase.gaveUp = false)
    (hslot : ∀ mode, b.engine.slots.get? thread = some (some mode) → Waits phase) :
    pending (b.engine.slots.get? thread) phase =
      (Act.step thread phase phase').returned thread ++
        pending (b'.engine.slots.get? thread) phase' := by
  -- A slot holds a decision only while its call waits.
  have hjoin : ¬ Waits phase → (b.engine.slots.get? thread).join = none := by
    intro hw
    cases hs : b.engine.slots.get? thread with
    | none => rfl
    | some content =>
        cases content with
        | none => rfl
        | some mode => exact absurd (hslot mode hs) hw
  cases hcall with
  | announce | silent | enter | refuse | pass | pause | leave | report => rfl
  | openSlot p =>
      have hnone := hjoin (by rintro ⟨q, hq⟩; cases hq)
      rw [pending, hnone, slots_openSlot, if_pos rfl]
      · rfl
      · intro mode he
        cases he
  | unreported =>
      have hnone := hjoin (by rintro ⟨q, hq⟩; cases hq)
      rw [pending, hnone, slots_dropSlot, if_pos rfl]
      · rfl
      · intro mode he
        cases he
  | @takeUp p mode hwake =>
      rw [Engine.decided_of_wakening hwake]
      rfl
  | closed hwake =>
      have hnone : (b.engine.slots.get? thread).join = none := by
        unfold Engine.wakening? at hwake
        split at hwake
        · cases hwake
        · next _ hne =>
            cases hs : b.engine.slots.get? thread with
            | none => rfl
            | some content =>
                cases content with
                | none => rfl
                | some mode => exact absurd hs (hne mode)
        · cases hwake
      rw [pending, hnone, slots_dropSlot, if_pos rfl]
      · rfl
      · intro mode he
        cases he
  | confirm mode =>
      have hnone := hjoin (by rintro ⟨q, hq⟩; cases hq)
      rw [Act.returned, if_pos rfl, Bridge.engine_mention]
      simp [pending, hnone]
  | abandon | excuse => cases hgave

/-- A step of a call is no matter of other slots. -/
theorem slots_step {b b' : Bridge} {thread : ThreadId} {phase phase' : Option Phase}
    (hcall : CallStep b thread phase b' phase') {other : ThreadId} (hne : other ≠ thread) :
    b'.engine.slots.get? other = b.engine.slots.get? other := by
  cases hcall with
  | announce | silent | enter | refuse | pass | pause | leave | report | confirm | abandon
  | excuse => rfl
  | openSlot => rw [slots_openSlot, if_neg hne]
  | unreported | closed => rw [slots_dropSlot, if_neg hne]
  | @takeUp p mode hwake => rw [(takeUp_frame b.engine thread p mode).1, slots_dropSlot, if_neg hne]

/-- What a task of the dispatcher does to what is about to be returned with. -/
theorem pending_perform {w : World} (h : w.Wakeful) {task : Task} {session : Session}
    (hs : w.session.perform? = some (task, session)) (thread : ThreadId) :
    pending (w.engine.slots.get? thread) (phaseOf w.jobs thread) ++
        (Act.dispatch (some task)).handed thread =
      pending ((effectOnEngine w.engine task).slots.get? thread) (phaseOf w.jobs thread) := by
  cases task with
  | forward c =>
      have hmild : c ≠ .terminate ∧ c ≠ .disconnect :=
        h.forwards_mild c (by rw [Session.forwards_perform hs]; simp [Task.forwarded?])
      by_cases hmode : ∃ mode, c = .resume thread mode
      · obtain ⟨mode, rfl⟩ := hmode
        obtain ⟨hslot, p, hphase⟩ := handed_finds h hs
        rw [apply_resume mode hslot, hslot, hphase, Act.handed, if_pos rfl]
        rfl
      · rw [(apply_frame w.engine hmild).2.2 thread fun mode he => hmode ⟨mode, he⟩]
        have hnone : (Act.dispatch (some (.forward c))).handed thread = [] := by
          cases c with
          | resume id mode =>
              rw [Act.handed, if_neg]
              rintro rfl
              exact hmode ⟨mode, rfl⟩
          | terminate | disconnect | setBreakpoint => rfl
        rw [hnone, List.append_nil]
  | forwardClosed =>
      rw [show effectOnEngine w.engine .forwardClosed = w.engine.close from rfl, (close_frame _).1]
      exact List.append_nil _
  | release | releaseAll | callback | followUp | command | lastCallback | closeQueue | closeGate
  | announceClosed | finish => exact List.append_nil _

/-- **What was handed over** is what calls returned with, and what the last one is about to return
with: every move keeps the account. -/
theorem handed_moves {w w' : World} {act : Act} (h : w.Wakeful) (hm : Moves w act w')
    (thread : ThreadId) :
    w.pendingOf thread ++ act.handed thread = act.returned thread ++ w'.pendingOf thread := by
  unfold pendingOf
  cases hm with
  | dispatch hd hends =>
      obtain ⟨-, hjobs, ⟨task, session, hs, hb⟩ | ⟨session, -, hs, hb⟩⟩ :=
        dispatchStep?_cases h.calm hd
      · obtain ⟨rest, hagenda, -⟩ := Session.perform?_cases hs
        rw [show w'.engine = _ from congrArg Bridge.engine hb, hjobs.phaseOf, hagenda]
        exact pending_perform h hs thread
      · rw [show w'.engine = w.engine from (congrArg Bridge.engine hb :), hjobs.phaseOf,
          (Session.take?_cases hs).1]
        exact List.append_nil _
  | @step b before after j j' hjobs hstep =>
      obtain ⟨hcall, hthread⟩ := callStep_of_job hstep
      have hphase : phaseOf w.jobs j.thread = j.phase :=
        phaseOf_of_mem h.distinct (by rw [hjobs]; simp)
      have hold := h.shakesHands j.thread
      unfold ShakesHands at hold
      rw [hphase] at hold
      rw [show (w.advanced b before j' after).engine = b.engine from
        congrArg Bridge.engine (bridge_advanced w b before j' after),
        phaseOf_advanced hjobs hthread (phase_of_result hstep) h.distinct,
        show (Act.step j.thread j.phase j'.phase).handed thread = [] from rfl, List.append_nil]
      -- Either the step is one of the thread, or it leaves its slot and its call alone.
      by_cases he : thread = j.thread
      · subst he
        rw [if_pos rfl, hphase]
        exact pending_step hcall hold.gaveUp hold.decided
      · have hnone : (Act.step j.thread j.phase j'.phase).returned thread = [] := by
          unfold Act.returned
          split
          · next heq =>
              injection heq with hid
              rw [if_neg (hid ▸ Ne.symm he)]
          · rfl
        rw [if_neg he, hnone, slots_step hcall he]
        rfl
  | @giveUp b before after j j' hjobs hgive =>
      rw [giveUp?_of_wakeful h j] at hgive
      cases hgive
  | @begin j nextHeap hphase hnew =>
      rw [phaseOf_begin nextHeap hphase hnew,
        show (({ w with nextHeap } : World).begin j).engine = w.engine from
          congrArg Bridge.engine (bridge_begin _ j)]
      exact List.append_nil _
  | call c hc => exact List.append_nil _

/-- **The account of decisions** in every run. -/
theorem handed_of_execution {settings : DebuggerSettings} (ht : settings.resumeTimeout = none)
    {trace : List Act} {w : World} (h : Execution Moves (create settings true) trace w)
    (thread : ThreadId) : handedTo thread trace = returnedWith thread trace ++ w.pendingOf thread :=
  h.invariant (P := fun trace w => handedTo thread trace = returnedWith thread trace ++ w.pendingOf thread)
    rfl fun {trace w act w'} hbefore ih hm => by
      have hstep := handed_moves (wakeful_of_execution ht hbefore) hm thread
      rw [handedTo_snoc, returnedWith_snoc, ih, List.append_assoc, List.append_assoc, hstep]

/-! ### From a decision to the return of the call -/

/-- Only the dispatcher moved. -/
def OnlyDispatches (acts : List Act) : Prop :=
  ∀ act ∈ acts, ∃ task, act = .dispatch task

/-- The dispatcher does its next task. -/
theorem exists_task {w : World} (hc : w.Calm) {task : Task} {rest : List Task}
    (hagenda : w.session.worker.agenda = task :: rest) :
    ∃ w', Moves w (.dispatch (some task)) w' ∧ w'.Calm ∧ SameCalls w.jobs w'.jobs ∧
      w'.session.worker.agenda = rest ∧ w'.engine = effectOnEngine w.engine task := by
  have hs : w.session.perform? = some (task, (w.session.withAgenda rest).effect task) := by
    unfold Session.perform?
    rw [hagenda]
    rfl
  obtain ⟨w', reports, hd⟩ := exists_dispatchStep hc hs
  have hmove := Moves.dispatch hd fun hends => by
    have hnone := hends.1
    rw [hagenda] at hnone
    cases hnone
  rw [hagenda] at hmove
  obtain ⟨hc', hjobs, ⟨task', session, hs', hb⟩ | ⟨session, hidle, -⟩⟩ := dispatchStep?_cases hc hd
  · obtain ⟨rfl, rfl⟩ := Prod.mk.inj (Option.some.inj (hs.symm.trans hs'))
    refine ⟨w', hmove, hc', hjobs, ?_, congrArg Bridge.engine hb⟩
    rw [show w'.session = _ from congrArg Bridge.session hb, Session.agenda_effect,
      Session.agenda_withAgenda]
  · rw [hs] at hidle
    cases hidle

/-- The dispatcher takes its next event. -/
theorem exists_event {w : World} (hc : w.Calm) (hidle : w.session.worker.agenda = [])
    (hawake : w.session.worker.exit = none) (hlive : w.session.queue.cancelled = false)
    {e : Event} {rest : List Event} (hevents : w.session.queue.events = e :: rest)
    (hends : ¬ Ends w.session) :
    ∃ w', Moves w (.dispatch none) w' ∧ w'.Calm ∧ SameCalls w.jobs w'.jobs ∧
      w'.session = (w.session.withEvents rest).handle e ∧ w'.engine = w.engine := by
  have hperform : w.session.perform? = none := by
    unfold Session.perform?
    rw [hidle]
  have htake : w.session.take? = some ((w.session.withEvents rest).handle e) :=
    Session.take?_eq_some.mpr ⟨hidle, hawake, .inl ⟨e, rest, hlive, hevents, rfl⟩⟩
  obtain ⟨w', reports, hd⟩ := exists_dispatchStep_take hc hperform htake
  have hmove := Moves.dispatch hd hends
  rw [hidle] at hmove
  obtain ⟨hc', hjobs, ⟨task, session, hs, -⟩ | ⟨session, -, hs, hb⟩⟩ := dispatchStep?_cases hc hd
  · cases hperform.symm.trans hs
  · obtain rfl := Option.some.inj (htake.symm.trans hs)
    exact ⟨w', hmove, hc', hjobs, congrArg Bridge.session hb, (congrArg Bridge.engine hb :)⟩

/-- The dispatcher alone comes to the end of its agenda. -/
theorem drain {start w : World} {trace : List Act} (tasks : List Task)
    (h : Execution Moves start trace w) (hc : w.Calm) (hagenda : w.session.worker.agenda = tasks) :
    ∃ acts w', Execution Moves start (trace ++ acts) w' ∧ OnlyDispatches acts ∧
      SameCalls w.jobs w'.jobs ∧ w'.engine = tasks.foldl effectOnEngine w.engine := by
  induction tasks generalizing trace w with
  | nil =>
      refine ⟨[], w, ?_, fun act hact => ?_, .refl _, ?_⟩
      · rw [List.append_nil]
        exact h
      · cases hact
      · rw [List.foldl_nil]
  | cons task rest ih =>
      obtain ⟨w₁, hmove, hc₁, hjobs, hagenda₁, he₁⟩ := exists_task hc hagenda
      obtain ⟨acts, w', hrun, honly, hjobs', he⟩ := ih (h.next hmove) hc₁ hagenda₁
      refine ⟨.dispatch (some task) :: acts, w', ?_, ?_, hjobs.trans hjobs', ?_⟩
      · rw [List.append_cons]
        exact hrun
      · intro act hact
        rcases List.mem_cons.mp hact with rfl | hact
        · exact ⟨_, rfl⟩
        · exact honly act hact
      · rw [he, he₁, List.foldl_cons]

/-- A call makes its next step. -/
theorem exists_step {w : World} (hd : (w.jobs.map Job.thread).Nodup) (ha : ∀ j ∈ w.jobs, j.Asks)
    {thread : ThreadId} {b : Bridge} {phase phase' : Phase}
    (hphase : phaseOf w.jobs thread = some phase)
    (h : phase.advance? w.bridge thread = some (b, phase')) :
    ∃ w', Moves w (.step thread (some phase) (some phase')) w' ∧ w'.bridge = b ∧
      phaseOf w'.jobs thread = some phase' ∧ (w'.jobs.map Job.thread).Nodup ∧
      ∀ j ∈ w'.jobs, j.Asks := by
  obtain ⟨j, hj, rfl, hjphase⟩ := exists_job_of_phaseOf hphase
  obtain ⟨before, after, hjobs⟩ := List.append_of_mem hj
  have hstep := advance_of_phase (ha j hj) hjphase h
  have hmove := Moves.step hjobs hstep
  rw [hjphase] at hmove
  refine ⟨_, hmove, bridge_advanced _ _ _ _ _, ?_, nodup_advanced hjobs rfl hd,
    forall_jobs_advanced hjobs (asks_of_advance hstep) ha⟩
  have hthread : (j.inPhase phase').thread = j.thread := rfl
  rw [phaseOf_advanced hjobs hthread (phase_of_result hstep) hd, if_pos rfl]
  rfl

/-- A thread that is suspended may be told to go on, which is queued unless it is already. -/
theorem resume_suspended {s : Session} (ha : s.Agrees) (hl : s.IsLive) {thread : ThreadId}
    (hs : s.target.stateOf thread = some .suspended) {mode : Mode}
    (hnew : .command (.resume thread mode) ∉ s.queue.events) :
    (s.resume thread mode).1 = .ok () ∧
      (s.resume thread mode).2 = s.withEvents (s.queue.events ++ [.command (.resume thread mode)]) := by
  obtain ⟨debugged, hthread, hstate⟩ := Target.exists_thread_of_stateOf hs
  have hterm : ¬ s.isTerminated = true := by simp [Session.isTerminated, Session.isTerminated_eq_false hl]
  have hsus : debugged.isSuspended = true := by simp [DebugThread.isSuspended, hstate]
  have hsubmit : s.queue.submit (.command (.resume thread mode)) =
      .ok (.queued, { s.queue with events := s.queue.events ++ [.command (.resume thread mode)] }) := by
    simp [EventQueue.submit, ha.queue_open, hnew]
  rw [Session.resume, if_neg hterm, hthread]
  dsimp only
  rw [if_pos hsus, Session.order, Session.submit, hsubmit]
  exact ⟨rfl, rfl⟩

/-- **At rest a call waits at a line, and its thread is suspended.** -/
theorem suspended_at_rest {w : World} (h : w.Wakeful) (hl : w.session.IsLive)
    (hidle : w.session.worker.agenda = []) (hevents : w.session.queue.events = [])
    {thread : ThreadId} {p : Pause} (hphase : phaseOf w.jobs thread = some (.waiting p))
    (hslot : w.engine.slots.get? thread = some none) :
    (∃ frames reason, p.report = .suspended thread frames reason) ∧
      w.session.target.standing thread = some (.suspended, p.report.reason?) := by
  have hold := h.shakesHands thread
  have hnone := Session.handing_of_forwards (Session.forwards_of_idle hidle) thread
  unfold ShakesHands at hold
  rw [hphase, hslot, hevents, lane_nil, eq_false hnone] at hold
  -- Nothing waits, so that the thread has been suspended by what its call reported.
  have hshape := hold.shaped p rfl
  rcases hold.source hl id rfl p rfl with hlast | ⟨-, hstand, hload⟩
  · cases hlast
  refine ⟨hshape.line ?_, hstand⟩
  cases hk : p.keepStep with
  | false => rfl
  | true =>
      obtain ⟨mode, hmode | hmode⟩ := hload hk
      · rw [hevents] at hmode
        cases hmode
      · rw [hidle] at hmode
        cases hmode

/-- **From a decision to the return of the call.** The dispatcher brings the decision on a
suspended thread to the call that waits, which takes it up and returns. -/
theorem returns_of_resume {w : World} (h : w.Wakeful) (hl : w.session.IsLive)
    (hidle : w.session.worker.agenda = []) (hevents : w.session.queue.events = [])
    {thread : ThreadId} {p : Pause} (hphase : phaseOf w.jobs thread = some (.waiting p))
    (hslot : w.engine.slots.get? thread = some none)
    (hs : w.session.target.stateOf thread = some .suspended) (mode : Mode) :
    ∃ acts w', OnlyDispatches acts ∧
      Execution Moves (w.withSession (w.session.resume thread mode).2)
        (acts ++ [.step thread (some (.waiting p)) (some (.confirming mode)),
          .step thread (some (.confirming mode)) (some (.returned (.ok ())))]) w' := by
  have ha := h.concord hl
  have hnew : Event.command (.resume thread mode) ∉ w.session.queue.events := by
    rw [hevents]
    exact List.not_mem_nil
  obtain ⟨-, hresume⟩ := resume_suspended ha hl hs hnew
  rw [hresume, hevents, List.nil_append]
  obtain ⟨next, -, -, heffects⟩ :=
    Target.moves_of_resume ha.indexed (Session.isTerminated_eq_false hl) mode hs
  -- The event is taken.
  have hc : (w.withSession (w.session.withEvents [.command (.resume thread mode)])).Calm :=
    ⟨h.calm.attached, h.calm.traps, h.calm.held⟩
  have hends : ¬ Ends (w.session.withEvents [.command (.resume thread mode)]) := by
    intro hends
    rcases hends.2 with he | he
    · cases he
    · cases he
  obtain ⟨w₁, hmove, hc₁, hjobs₁, hs₁, he₁⟩ := exists_event hc hidle ha.awake h.uncancelled rfl hends
  have hagenda : w₁.session.worker.agenda =
      [.release thread, .callback (.threadStateChanged thread mode.resultingState),
        .command (.resume thread mode), .forward (.resume thread mode)] := by
    rw [hs₁, Session.agenda_handle, Session.tasksAfter_withEvents]
    show Session.tasksAfter w.session (.command (.resume thread mode)) = _
    rw [Session.tasksAfter, heffects]
    rfl
  -- The dispatcher does the four tasks; the last one fills the slot.
  obtain ⟨acts, w₂, hrun, honly, hjobs₂, he₂⟩ := drain _ (Execution.next .start hmove) hc₁ hagenda
  have hslot₂ : w₂.engine.slots.get? thread = some (some mode) := by
    rw [he₂, he₁]
    exact apply_resume mode hslot
  have hphase₂ : phaseOf w₂.jobs thread = some (.waiting p) := by
    rw [hjobs₂.phaseOf, hjobs₁.phaseOf]
    exact hphase
  have hdistinct : (w₂.jobs.map Job.thread).Nodup := by
    rw [hjobs₂.threads, hjobs₁.threads]
    exact h.distinct
  have hasks : ∀ j ∈ w₂.jobs, j.Asks := hjobs₂.asks (hjobs₁.asks h.asks)
  -- The call takes the decision up and confirms it.
  have htakeUp : (Phase.waiting p).advance? w₂.bridge thread =
      some ({ w₂.bridge with engine := w₂.bridge.engine.takeUp thread p mode }, .confirming mode) := by
    have hwake : w₂.bridge.engine.wakening? thread = some (.decided mode) := by
      unfold Engine.wakening?
      rw [show w₂.bridge.engine.slots.get? thread = some (some mode) from hslot₂]
    simp only [Phase.advance?, hwake]
  obtain ⟨w₃, hmove₃, -, hphase₃, hdistinct₃, hasks₃⟩ := exists_step hdistinct hasks hphase₂ htakeUp
  have hconfirm : (Phase.confirming mode).advance? w₃.bridge thread =
      some (w₃.bridge.mention (.resumed thread mode), .returned (.ok ())) := rfl
  obtain ⟨w₄, hmove₄, -⟩ := exists_step hdistinct₃ hasks₃ hphase₃ hconfirm
  refine ⟨.dispatch none :: acts, w₄, ?_, ?_⟩
  · intro act hact
    rcases List.mem_cons.mp hact with rfl | hact
    · exact ⟨_, rfl⟩
    · exact honly act hact
  · rw [List.append_cons]
    exact .next (.next hrun hmove₃) hmove₄

/-! ### The main result -/

/-- **No wake-up is lost.** Of a world that came about by moves of calls that wait without a
bound, of the dispatcher and of the control side, where nothing that ends everything was dispatched
and nobody cancelled:

* a decision that is handed to the engine finds the call of its thread waiting, its slot empty;
* the decisions on a thread that were handed over are those that its calls returned with, in
  order, and the one that a call is about to return with;
* once nothing is left to dispatch while the session runs, a call that waits with an empty slot
  stops at a line; its thread is suspended, the gate knows of the pause, the thread may be resumed in
  every mode, and then the dispatcher alone lets the call return with that decision. -/
theorem no_lost_wakeup {settings : DebuggerSettings} (ht : settings.resumeTimeout = none)
    {trace : List Act} {w : World} (h : Execution Moves (create settings true) trace w) :
    (∀ thread mode rest, w.session.worker.agenda = .forward (.resume thread mode) :: rest →
      w.engine.slots.get? thread = some none ∧
        ∃ j ∈ w.jobs, j.thread = thread ∧ ∃ p, j.phase = some (.waiting p)) ∧
    (∀ thread, handedTo thread trace = returnedWith thread trace ++ w.pendingOf thread) ∧
    (w.session.state = .running → w.session.queue.events = [] → w.session.isIdle = true →
      ∀ j ∈ w.jobs, ∀ p, j.phase = some (.waiting p) → w.engine.slots.get? j.thread = some none →
        (∃ frames reason, p.report = .suspended j.thread frames reason) ∧
        w.session.threadState j.thread = .ok .suspended ∧ j.thread ∈ w.session.gate.paused ∧
        ∀ mode, (w.session.resume j.thread mode).1 = .ok () ∧
          ∃ acts w', OnlyDispatches acts ∧
            Execution Moves (w.withSession (w.session.resume j.thread mode).2)
              (acts ++ [.step j.thread (some (.waiting p)) (some (.confirming mode)),
                .step j.thread (some (.confirming mode)) (some (.returned (.ok ())))]) w') := by
  have hw := wakeful_of_execution ht h
  refine ⟨fun thread mode rest hagenda => ?_, handed_of_execution ht h, ?_⟩
  · have hs : w.session.perform? = some (.forward (.resume thread mode),
        (w.session.withAgenda rest).effect (.forward (.resume thread mode))) := by
      unfold Session.perform?
      rw [hagenda]
      rfl
    obtain ⟨hslot, p, hphase⟩ := handed_finds hw hs
    obtain ⟨j, hj, hthread, hjphase⟩ := exists_job_of_phaseOf hphase
    exact ⟨hslot, j, hj, hthread, p, hjphase⟩
  · intro hrun hevents hidle j hj p hjphase hslot
    have hl : w.session.IsLive := ⟨by rw [show w.session.target.state = .running from hrun]; decide,
      hw.uncancelled⟩
    have ha := hw.concord hl
    have hagenda : w.session.worker.agenda = [] := by
      simp only [Session.isIdle, Bool.and_eq_true, List.isEmpty_iff] at hidle
      exact hidle.1
    have hphase : phaseOf w.jobs j.thread = some (.waiting p) :=
      (phaseOf_of_mem hw.distinct hj).trans hjphase
    -- At rest, a pause that waits without a decision is a line stop, and was dispatched.
    obtain ⟨hline, hstand⟩ := suspended_at_rest hw hl hagenda hevents hphase hslot
    have hsus : w.session.target.stateOf j.thread = some .suspended := by
      rw [Target.stateOf_eq_standing, hstand]
      rfl
    have hnew (mode : Mode) : Event.command (.resume j.thread mode) ∉ w.session.queue.events := by
      rw [hevents]
      exact List.not_mem_nil
    refine ⟨hline, ?_, ?_, fun mode => ⟨(resume_suspended ha hl hsus (hnew mode)).1,
      returns_of_resume hw hl hagenda hevents hphase hslot hsus mode⟩⟩
    · obtain ⟨debugged, hthread, hstate⟩ := Target.exists_thread_of_stateOf hsus
      rw [Session.threadState, hthread, ← hstate]
    · have hon := ha.agreesOn j.thread
      have hphase : w.session.gate.phase ≠ .ended := fun hended => by
        have hmem := ha.ending hended
        rw [hevents] at hmem
        cases hmem
      refine (hon.paused hphase).mpr (.inl ?_)
      rw [hevents, lane_nil, settled_nil, hsus]

/-! ### A stop at the first line -/

/-- The world once the engine has started for a thread. -/
def started : World :=
  (((create { suspendOnStartup := true } true).begin (.ofCheckpoint ⟨1⟩ .started)).settleFrom [] 4).1

def rootScript : Snapshot :=
  { id := ⟨1⟩, title := "main", source := "print 1", resource := some "main" }

/-- The world once the root script was loaded; the stop on startup is still to come. -/
def loaded : World :=
  ((started.begin (.ofCheckpoint ⟨1⟩ (.load rootScript 0))).settleFrom [] 18).1

/-- The world once the thread has stopped at the first line. -/
def stoppedOnStartup : World :=
  ((loaded.begin (.ofCheckpoint ⟨1⟩ (.line rootScript 1 1 []))).settleFrom [] 7).1

/-- The first line of a root script: its stop is one of those that are answered. -/
theorem no_lost_wakeup_on_startup :
    ∃ j ∈ stoppedOnStartup.jobs, ∃ p, j.phase = some (.waiting p) ∧
      stoppedOnStartup.session.threadState j.thread = .ok .suspended ∧
      ∀ mode, ∃ acts w', OnlyDispatches acts ∧
        Execution Moves
          (stoppedOnStartup.withSession (stoppedOnStartup.session.resume j.thread mode).2)
          (acts ++ [.step j.thread (some (.waiting p)) (some (.confirming mode)),
            .step j.thread (some (.confirming mode)) (some (.returned (.ok ())))]) w' := by
  have h₀ : Execution Moves (create { suspendOnStartup := true } true) [.begin ⟨1⟩]
      ((create { suspendOnStartup := true } true).begin (.ofCheckpoint ⟨1⟩ .started)) :=
    .next .start (.begin (j := .ofCheckpoint ⟨1⟩ .started) 1 rfl (by decide))
  obtain ⟨_, h₁, -⟩ := execution_of_settleFrom (fun h _ => h) h₀ 4 (by decide +kernel)
  have hload := Moves.begin (w := started) (j := .ofCheckpoint ⟨1⟩ (.load rootScript 0))
    started.nextHeap rfl (by decide +kernel)
  obtain ⟨_, h₂, -⟩ := execution_of_settleFrom (fun h _ => h) (h₁.next hload) 18 (by decide +kernel)
  have hline := Moves.begin (w := loaded) (j := .ofCheckpoint ⟨1⟩ (.line rootScript 1 1 []))
    loaded.nextHeap rfl (by decide +kernel)
  obtain ⟨_, h₃, -⟩ := execution_of_settleFrom (fun h _ => h) (h₂.next hline) 7 (by decide +kernel)
  have hwaits : (stoppedOnStartup.jobs.any fun j =>
      j.phase.any Job.waits && stoppedOnStartup.engine.slots.get? j.thread == some none) = true := by
    decide +kernel
  obtain ⟨j, hj, hjwaits⟩ := List.any_eq_true.mp hwaits
  obtain ⟨hphase, hslot⟩ := Bool.and_eq_true_iff.mp hjwaits
  obtain ⟨p, hp⟩ : ∃ p, j.phase = some (.waiting p) := by
    cases hj' : j.phase with
    | none =>
        rw [hj'] at hphase
        cases hphase
    | some phase =>
        rw [hj'] at hphase
        cases phase with
        | waiting p => exact ⟨p, rfl⟩
        | entering | opening | reporting | confirming | abandoning | excusing | returned => cases hphase
  obtain ⟨-, hstate, -, hresume⟩ := (no_lost_wakeup rfl h₃).2.2 (by decide +kernel)
    (by decide +kernel) (by decide +kernel) j hj p hp (eq_of_beq hslot)
  exact ⟨j, hj, p, hp, hstate, fun mode => (hresume mode).2⟩

end World

end Pausepoint
