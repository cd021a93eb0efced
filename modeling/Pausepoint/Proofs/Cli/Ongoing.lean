import Pausepoint.Proofs.Cli.Stops
import Pausepoint.Proofs.World.Curtailing
import Pausepoint.Proofs.World.Noticing
import Pausepoint.Proofs.World.Quitting

/-!
# Pausepoint.Proofs.Cli.Ongoing

A script that is under way while someone answers its stops.

The invariant is `World.Ongoing`. The dispatcher keeps it (`Ongoing.dispatch`), and so does the job until its run
comes to its end (`Ongoing.advance`); clients keep it by reading frames, by asking for the end (`Ongoing.reread`),
and by answering a stop (`Ongoing.resume`). `Ongoing.stop` is what it is for: where an answer is awaited, the stop
can be read off the run alone, with the frames that are on the stack and all that is read of them.

Afterwards, and once the end was asked for, nothing is left to be shown (`Session.Lapses`).
-/

namespace Pausepoint

open Pausepoint.Language

/-! ### Steps of a job -/

/-- A call leaves a session that goes on as it is, but for what it reports. -/
theorem stands_of_callStep {b b' : Bridge} {thread : ThreadId} {phase phase' : Option Phase}
    (hs : b.session.Stands) (h : CallStep b thread phase b' phase') : b'.session.Stands := by
  cases h with
  | announce | report | unreported | confirm | excuse => exact hs.notify _
  | silent | enter | refuse | pass | pause | openSlot | takeUp | closed | leave => exact hs
  | abandon =>
      exact ⟨⟨hs.live.target, hs.live.queue⟩, hs.fault, hs.queue_open, hs.gate_open, hs.awake, hs.agenda⟩

/-- Who makes a call reports of itself only. -/
theorem lane_of_callStep {b b' : Bridge} {thread other : ThreadId} {phase phase' : Option Phase}
    (hshaped : ∀ p ∈ phase.bind Phase.pause?, p.ShapedFor thread) (hne : other ≠ thread)
    (h : CallStep b thread phase b' phase') :
    lane other b'.session.queue.events = lane other b.session.queue.events := by
  cases h with
  | announce hn => exact (World.heard_notify b.session fun _ _ => hn ▸ nofun).lane_other hne
  | report | unreported => exact (World.heard_own b.session (hshaped _ rfl).thread?).lane_other hne
  | confirm | excuse => exact (World.heard_own b.session rfl).lane_other hne
  | silent | enter | refuse | pass | pause | openSlot | takeUp | closed | abandon | leave => rfl

/-- Who is in a call still has more to do than to report the end of the engine. -/
theorem Smooth.points_ne_ended {thread : ThreadId} {b : Bridge} {points : List Checkpoint} {phase : Phase}
    (h : Smooth thread b points (some phase)) : points ≠ [.ended] := by
  have hcourse := h.course
  generalize hall : some phase = at? at hcourse
  intro hpoints
  cases hcourse with
  | unstarted | between => cases hall
  | started | within => simp at hpoints

/-- A run that has come to its end has its outcome, whatever it is replied. -/
theorem Job.Ending.resting {j : Job} {result : Outcome} (h : j.Ending) (hsteady : j.run.Steady)
    (hresult : j.run.undisturbed = .script result) : j.Resting result := by
  obtain ⟨hpoints, reply, hphase⟩ := h
  refine ⟨⟨reply, hphase⟩, ?_⟩
  cases hrun : j.run with
  | done a =>
      rw [hrun] at hpoints
      cases hpoints
  | ask point heap resume =>
      rw [hrun] at hpoints hsteady hresult
      obtain ⟨rfl, hleft⟩ := List.cons.inj hpoints
      refine ⟨heap, congrArg (Run.ask .ended heap) (funext fun answer => ?_)⟩
      rw [hsteady.1 answer trivial]
      cases hend : resume (.ok ()) with
      | done a =>
          rw [Run.undisturbed, hend] at hresult
          exact congrArg Run.done hresult
      | ask =>
          rw [hend] at hleft
          cases hleft

/-- The step to the end of a run reports the end of the engine. -/
theorem report_of_ending {b b' : Bridge} {j j' : Job}
    (hsmooth : Smooth j.thread b j.run.checkpoints j.phase) (hstep : j.advance? b = some (b', j'))
    (hending : j'.Ending) : b'.session = (b.session.notify .engineTerminated).2 := by
  obtain ⟨hpoints, reply, hphase⟩ := hending
  obtain ⟨point, heap, resume, hrun, ⟨-, rfl, rfl⟩ | ⟨phase, phase', hsome, -, rfl⟩ | ⟨_, _, _, rfl⟩⟩ :=
    Job.advance?_cases hstep
  · have hpoint : point = .ended := by
      have hall : j.run.checkpoints = [.ended] := hpoints
      rw [hrun] at hall
      exact (List.cons.inj hall).1
    subst hpoint
    simp [Job.begin, Bridge.engineTerminated, hsmooth.isOpen]
    rfl
  · rw [hsome] at hsmooth
    exact absurd hpoints hsmooth.points_ne_ended
  · cases hphase

/-- Where a pause of the thread waits to be dispatched, nothing is on its way to the engine. -/
theorem Stage.pipeline_of_reported {plan : Plan} {thread : ThreadId} {total : List Checkpoint} {b : Bridge}
    {answers : List Mode} {halts : List Halt} {points : List Checkpoint} {p : Pause}
    (h : Stage plan thread total b answers halts points (some (.waiting p)))
    (hslot : b.engine.slots.get? thread = some none) (hlane : lane thread b.session.queue.events ≠ []) :
    b.session.pipeline = [] := by
  cases h with
  | loading hp | stopped hp => exact hp
  | installing _ _ hnil | answering _ _ _ hnil => exact absurd hnil hlane
  | installed _ hfilled | answered _ hfilled => cases hslot.symm.trans hfilled

/-- A command that does not wait yet is queued as long as the queue is open. -/
theorem Session.send_fresh {s : Session} {c : Command} (hopen : s.queue.closed = false)
    (hnew : .command c ∉ s.queue.events) :
    s.send c = (.ok (), s.withEvents (s.queue.events ++ [.command c])) := by
  have hsubmit : s.queue.submit (.command c) =
      .ok (.queued, { s.queue with events := s.queue.events ++ [.command c] }) := by
    simp [EventQueue.submit, hopen, hnew]
  unfold send order submit
  rw [hsubmit]
  rfl

/-! ### Nothing left to be shown -/

/-- **Nobody is suspended**, unless at the stop that was shown last, and nobody is about to be. -/
structure Session.Lapses (last : Option World.Handle) (s : Session) : Prop where
  exact : s.target.registry.Exact
  shown : ∀ id, s.target.stateOf id = some .suspended → ∃ top ∈ last, s.target.topOf id = some top
  reports : ∀ n, .notification n ∈ s.queue.events → n.isPause = false ∧ ∀ id frames, n ≠ .stackFrames id frames

namespace Session.Lapses

variable {last : Option World.Handle} {s s' : Session}

theorem take (h : s.Lapses last) (hs : s.take? = some s') : s'.Lapses last := by
  obtain ⟨-, ⟨e, rest, hevents, rfl⟩ | ⟨-, rfl⟩⟩ := Session.take?_cases hs
  · have hmem : e ∈ s.queue.events := by
      rw [hevents]
      exact List.mem_cons_self
    have hexact : (s.targetAfter e).registry.Exact := by
      cases e with
      | notification n => exact (Target.tells_handleNotification h.exact _ n).exact
      | command c => exact (Target.tells_handleCommand h.exact c).exact
    have hspares (id : ThreadId) (hafter : (s.targetAfter e).stateOf id = some .suspended) :
        s.target.Spares (s.targetAfter e) id := by
      cases e with
      | notification n =>
          obtain ⟨hpause, hstack⟩ := h.reports n hmem
          exact Target.spares_report h.exact.indexed _ (fun _ => hpause) (hstack id)
      | command c => exact Target.spares_handleCommand h.exact.indexed c id
    rw [Session.handle_eq, Session.targetAfter_withEvents]
    refine ⟨hexact, fun id hafter => ?_, fun n hn => h.reports n ?_⟩
    · have hspared := hspares id hafter
      obtain ⟨top, htop, hshown⟩ := h.shown id (hspared.stateOf hafter)
      refine ⟨top, htop, ?_⟩
      rw [World.topOf_of_thread_eq (hspared.thread.resolve_right fun hnot => hnot hafter)]
      exact hshown
    · rw [hevents]
      exact List.mem_cons_of_mem _ hn
  · exact ⟨h.exact, h.shown, h.reports⟩

theorem perform (h : s.Lapses last) {task : Task} (hs : s.perform? = some (task, s')) : s'.Lapses last := by
  obtain ⟨rest, -, rfl⟩ := Session.perform?_cases hs
  have htarget := Session.target_effect (s.withAgenda rest) task
  refine ⟨htarget ▸ h.exact, fun id => by rw [htarget]; exact h.shown id, fun n hn => h.reports n ?_⟩
  cases task with
  | followUp c =>
      obtain ⟨cs, -, hcs, -⟩ := (s.withAgenda rest).commanded_submit c
      have hevents : .notification n ∈ ((s.withAgenda rest).submit (.command c)).2.queue.events := hn
      rw [hcs.events, List.mem_append] at hevents
      refine hevents.resolve_right fun hcommand => ?_
      obtain ⟨_, -, he⟩ := List.mem_map.mp hcommand
      cases he
  | closeQueue => cases hn
  | callback | lastCallback | release | releaseAll | forward | command | closeGate | forwardClosed
  | announceClosed | finish => exact hn

theorem reportEnd (h : s.Lapses last) : (s.notify .engineTerminated).2.Lapses last := by
  obtain ⟨htarget, -, -, hqueue⟩ := s.notify_frame .engineTerminated
  refine ⟨htarget ▸ h.exact, fun id => by rw [htarget]; exact h.shown id, fun n hn => ?_⟩
  rcases hqueue with hqueue | hqueue
  · exact h.reports n (hqueue ▸ hn)
  · rw [hqueue, List.mem_append] at hn
    rcases hn with hold | hnew
    · exact h.reports n hold
    · obtain rfl := Event.notification.inj (List.mem_singleton.mp hnew)
      exact ⟨rfl, nofun⟩

end Session.Lapses

namespace World

/-- A call waits for every thread that is suspended. -/
theorem phaseOf_of_suspended {w : World} (hw : w.Wakeful) (hl : w.session.IsLive) {id : ThreadId}
    (h : w.session.target.stateOf id = some .suspended) : ∃ p, phaseOf w.jobs id = some (.waiting p) := by
  have hon := (hw.concord hl).agreesOn id
  have hfits := hon.fits
  rw [h] at hfits
  have hold := hw.shakesHands id
  unfold ShakesHands at hold
  refine ((hold.awaits hl).mp (.inl ?_)).2
  rw [eq_nil_of_fits_suspended hon.own hfits, settled_nil, ← Target.stateOf_eq_standing, h]

/-- Only the thread of the only job can be suspended, and has reported a pause. -/
theorem eq_thread_of_waiting {w : World} {j : Job} (hjobs : w.jobs = [j]) {id : ThreadId} {p : Pause}
    (hwaits : phaseOf w.jobs id = some (.waiting p)) : id = j.thread ∧ j.phase = some (.waiting p) := by
  obtain ⟨k, hk, hthread, hphase⟩ := exists_job_of_phaseOf hwaits
  rw [hjobs] at hk
  obtain rfl := List.mem_singleton.mp hk
  exact ⟨hthread.symm, hphase⟩

/-- **Where nothing is left to be shown**: the only thread that may be suspended is at a stop that was shown. -/
theorem lapses_of_waiting {w : World} {settings : DebuggerSettings} {last : Option Handle} (hw : w.Wakeful)
    (hl : w.session.IsLive) (hhosted : ∀ id, Hosted settings id w)
    (hshown : ∀ id p, phaseOf w.jobs id = some (.waiting p) →
      lane id w.session.queue.events = [] ∧ ∃ top ∈ last, w.session.target.topOf id = some top) :
    w.session.Lapses last := by
  have hexact : w.session.target.registry.Exact := (hhosted ⟨0⟩).tended.exact
  refine ⟨hexact, fun id hsuspended => ?_, fun n hn => ⟨?_, fun id frames he => ?_⟩⟩
  · obtain ⟨p, hwaits⟩ := phaseOf_of_suspended hw hl hsuspended
    exact (hshown id p hwaits).2
  · refine Bool.eq_false_iff.mpr fun hpause => ?_
    obtain ⟨id, hid⟩ : ∃ id, n.thread? = some id := by
      cases n with
      | scriptReady id | suspended id => exact ⟨id, rfl⟩
      | engineStarted | engineTerminated | stackFrames | resumed => cases hpause
    obtain ⟨-, p, hwaits, -⟩ := waiting_of_pause hw hl hn hid hpause
    have hlane := (hshown id p hwaits).1
    have hmem : n ∈ lane id w.session.queue.events := mem_lane.mpr ⟨hn, hid⟩
    rw [hlane] at hmem
    cases hmem
  · subst he
    exact (hhosted id).tended.frameless frames hn

/-! ### While nobody asks for the end -/

/-- **The invariant** of a run under way, after some answers, the last of them to a stop with the given frame on
top. In the end the run will have passed what is there to be seen, and have the given outcome. -/
structure Ongoing (plan : Plan) (thread : ThreadId) (views : List (Checkpoint × Heap)) (result : Outcome)
    (answers : List Mode) (last : Option Handle) (w : World) : Prop where
  wakeful : w.Wakeful
  alone : RunsAlone thread (.script result) w
  hosted : ∀ id, Hosted plan.settings id w
  follows : ∃ halts, Follows plan thread (views.map Prod.fst) answers halts w
  stands : w.session.Stands
  recalls : w.session.target.Recalls last
  /-- Nobody else has reported anything. -/
  speaks : ∀ other, other ≠ thread → lane other w.session.queue.events = []
  job : ∃ j, w.jobs = [j] ∧ ¬ j.Ending ∧ j.heap.isSome = true ∧ j.run.Curtails result.1.output.toList ∧
    j.run.views <:+ views

/-- **The run has come to its end**: it has passed all that is there to be seen, and nothing is left to be shown. -/
structure Concluding (plan : Plan) (views : List (Checkpoint × Heap)) (result : Outcome) (answers : List Mode)
    (last : Option Handle) (w : World) : Prop where
  quitting : Quitting result w none
  through : ∃ halts pending, plan.Keeps (views.map Prod.fst) answers halts pending []
  stands : w.session.Stands
  lapses : w.session.Lapses last

section

variable {plan : Plan} {thread : ThreadId} {views : List (Checkpoint × Heap)} {result : Outcome}
  {answers : List Mode} {last : Option Handle} {reports : List Report} {w w' : World}

/-- The plan is served as long as the run is under way. -/
theorem Follows.serves {total : List Checkpoint} {halts : List Halt}
    (h : Follows plan thread total answers halts w) {j : Job} (hjobs : w.jobs = [j]) (hending : ¬ j.Ending) :
    j.thread = thread ∧ plan.Serves w.bridge ∧
      Stage plan thread total w.bridge answers halts j.run.checkpoints j.phase := by
  cases h with
  | ended hall => exact absurd (hall j (by rw [hjobs]; exact List.mem_cons_self)) hending
  | @ongoing k hk hthread _ hserves hstage =>
      rw [hjobs] at hk
      obtain rfl := List.singleton_inj.mp hk
      exact ⟨hthread, hserves, hstage⟩

/-- A session that goes on signals no end. -/
theorem stands_dispatch (hc : w.Calm) (h : w.session.Stands) (hl : w'.session.IsLive)
    (hd : w.dispatchStep? = some (w', reports)) : w'.session.Stands ∧ .ended ∉ signals reports := by
  obtain ⟨task, session, hs, rfl, rfl⟩ | ⟨session, -, hs, rfl, rfl⟩ := dispatchStep?_calm hc hd
  · obtain ⟨hparts, hstands, -⟩ := h.perform hs
    refine ⟨?_, ended_of_not_parts hparts session⟩
    rw [World.session, (noteStop_frame _ task).2.2.2.2]
    exact hstands
  · obtain ⟨-, -, -, -, hsilent | ⟨hstands, -⟩⟩ := h.take hs
    · exact absurd hsilent.state hl.target
    · exact ⟨hstands, List.not_mem_nil⟩

/-- The dispatcher reports nothing itself. -/
theorem lane_dispatch (hc : w.Calm) {other : ThreadId} (h : lane other w.session.queue.events = [])
    (hd : w.dispatchStep? = some (w', reports)) : lane other w'.session.queue.events = [] := by
  obtain ⟨-, -, ⟨task, session, hs, hb⟩ | ⟨session, -, hs, hb⟩⟩ := dispatchStep?_cases hc hd
  · rw [World.session, hb]
    obtain ⟨rest, -, rfl⟩ := Session.perform?_cases hs
    cases task with
    | followUp c =>
        obtain ⟨cs, -, hcs, -⟩ := (w.session.withAgenda rest).commanded_submit c
        show lane other ((w.session.withAgenda rest).submit (.command c)).2.queue.events = []
        rw [hcs.events, lane_append, lane_commands, List.append_nil]
        exact h
    | closeQueue => rfl
    | callback | lastCallback | release | releaseAll | forward | command | closeGate | forwardClosed
    | announceClosed | finish => exact h
  · rw [World.session, hb]
    obtain ⟨-, ⟨e, rest, hevents, rfl⟩ | ⟨-, rfl⟩⟩ := Session.take?_cases hs
    · rw [Session.handle_eq]
      rw [hevents] at h
      exact List.filterMap_eq_nil_iff.mpr fun later hlater =>
        List.filterMap_eq_nil_iff.mp h later (List.mem_cons_of_mem _ hlater)
    · exact h

namespace Ongoing

/-- What is known of the job. -/
theorem inspect (h : Ongoing plan thread views result answers last w) :
    ∃ j, w.jobs = [j] ∧ j.thread = thread ∧ ¬ j.Ending ∧ j.run.Curtails result.1.output.toList ∧
      j.run.Steady ∧ Smooth j.thread w.bridge j.run.checkpoints j.phase ∧ plan.Serves w.bridge := by
  obtain ⟨j, hjobs, hending, -, hcurtails, -⟩ := h.job
  obtain ⟨hsteady, hsmooth⟩ := smooth_of_runsAlone h.alone hjobs hending
  obtain ⟨halts, hfollows⟩ := h.follows
  obtain ⟨hthread, hserves, -⟩ := hfollows.serves hjobs hending
  exact ⟨j, hjobs, hthread, hending, hcurtails, hsteady, hsmooth, hserves⟩

theorem agrees (h : Ongoing plan thread views result answers last w) : w.session.Agrees :=
  h.wakeful.concord h.stands.live

theorem others (h : Ongoing plan thread views result answers last w) {id : ThreadId}
    (hsuspended : w.session.target.stateOf id = some .suspended) : id = thread := by
  obtain ⟨j, hjobs, hthread, -⟩ := h.inspect
  obtain ⟨p, hwaits⟩ := phaseOf_of_suspended h.wakeful h.stands.live hsuspended
  exact (eq_thread_of_waiting hjobs hwaits).1.trans hthread

/-- Where the report of a pause waits, no answer is queued. -/
theorem unanswered (h : Ongoing plan thread views result answers last w) {n : Notification}
    (hn : .notification n ∈ w.session.queue.events) (hid : n.thread? = some thread)
    (hpause : n.isPause = true) : ¬ w.Answered thread := by
  obtain ⟨j, hjobs, hending, -⟩ := h.job
  obtain ⟨halts, hfollows⟩ := h.follows
  obtain ⟨rfl, hserves, hstage⟩ := hfollows.serves hjobs hending
  obtain ⟨hslot, p, hwaits, -⟩ := waiting_of_pause h.wakeful h.stands.live hn hid hpause
  rw [(eq_thread_of_waiting hjobs hwaits).2] at hstage
  have hlane : lane j.thread w.bridge.session.queue.events ≠ [] :=
    List.ne_nil_of_mem (mem_lane.mpr ⟨hn, hid⟩)
  have hpipeline := hstage.pipeline_of_reported hslot hlane
  rintro ⟨mode, hmode⟩
  have hmem : Command.resume j.thread mode ∈ w.bridge.session.pipeline :=
    List.mem_append_left _ (List.mem_append_right _ (mem_commandsOf.mpr hmode))
  rw [hpipeline] at hmem
  cases hmem

/-- Where an answer is awaited, nothing is on its way to the engine. -/
theorem pipeline_eq_nil (h : Ongoing plan thread views result answers last w)
    (hawaits : w.AwaitsAnswer thread) : w.session.pipeline = [] := by
  obtain ⟨halts, hfollows⟩ := h.follows
  obtain ⟨j, p, -, -, -, -, hstop, -, hline, hstage⟩ := ongoing_of_awaits hfollows h.wakeful hawaits
  obtain ⟨-, -, -, -, -, -, -, -, -, -, hpipeline, -⟩ :=
    hstage.of_stop hstop.slot hline hstop.handing hawaits.unanswered
  exact hpipeline

theorem following_eq_nil (h : Ongoing plan thread views result answers last w)
    (hstopped : w.session.target.HasStopped thread) (hfree : ¬ w.Answered thread) :
    w.session.following = [] := by
  have hpipeline := h.pipeline_eq_nil (awaits_of_hasStopped h.wakeful h.stands.live hstopped hfree)
  exact (List.append_eq_nil_iff.mp hpipeline).2

/-! ### Steps of the dispatcher -/

theorem dispatch (h : Ongoing plan thread views result answers last w)
    (hd : w.dispatchStep? = some (w', reports)) :
    Ongoing plan thread views result answers last w' ∧ .ended ∉ signals reports := by
  obtain ⟨j, hjobs, hending, hheap, hcurtails, hviews⟩ := h.job
  obtain ⟨_, -, -, -, -, -, hsmooth, -⟩ := h.inspect
  obtain ⟨halts, hfollows⟩ := h.follows
  obtain ⟨j', hjobs', -, hphase, hrun, hheap'⟩ := exists_job_of_dispatch hjobs hd
  have hending' : ¬ j'.Ending := by
    unfold Job.Ending
    rwa [hphase, hrun]
  have hends : ¬ Ends w.session := not_ends_of_peaceful hsmooth.peaceful
  have hfollows' := follows_dispatch h.alone h.wakeful hfollows hd
  obtain ⟨-, hserves, -⟩ := hfollows'.serves hjobs' hending'
  obtain ⟨hstands, hsignals⟩ := stands_dispatch h.wakeful.calm h.stands hserves.live hd
  refine ⟨⟨wakeful_moves h.wakeful (.dispatch hd hends), ?_, ?_, ⟨halts, hfollows'⟩, hstands, ?_, ?_,
    j', hjobs', hending', hheap' ▸ hheap, hrun ▸ hcurtails, hrun ▸ hviews⟩, hsignals⟩
  · exact runsAlone_dispatch h.alone hd (apart_of_wakeful h.wakeful)
  · exact fun id => (h.hosted id).dispatch hd
  · exact recalls_dispatch h.wakeful.calm h.recalls hd
  · exact fun other hne => lane_dispatch h.wakeful.calm (h.speaks other hne) hd

/-- **Where an answer is awaited**, the dispatcher leaves the thread as it is. -/
theorem awaits_dispatch (h : Ongoing plan thread views result answers last w)
    (hawaits : w.AwaitsAnswer thread) (hd : w.dispatchStep? = some (w', reports)) :
    w'.AwaitsAnswer thread ∧ w'.session.target.thread? thread = w.session.target.thread? thread := by
  obtain ⟨h', -⟩ := h.dispatch hd
  have hstopped := hawaits.hasStopped
  have hpipeline := h.pipeline_eq_nil hawaits
  have hfollowing : w.session.following = [] := (List.append_eq_nil_iff.mp hpipeline).2
  have hfree : ¬ w.Answered thread := fun ⟨mode, hmode⟩ => hawaits.unanswered mode hmode
  -- That the thread has stopped is read off its entry, which the dispatcher leaves alone as long as nobody has
  -- answered.
  suffices hboth : w'.session.target.thread? thread = w.session.target.thread? thread ∧
      (w'.Answered thread → w.Answered thread) by
    refine ⟨?_, hboth.1⟩
    have hafter : w'.session.target.HasStopped thread := by
      rwa [Target.HasStopped, Target.standing, hboth.1]
    exact awaits_of_hasStopped h'.wakeful h'.stands.live hafter fun hanswered => hfree (hboth.2 hanswered)
  obtain ⟨-, -, ⟨task, session, hs, hb⟩ | ⟨session, -, hs, hb⟩⟩ := dispatchStep?_cases h.wakeful.calm hd
  · obtain rfl : w'.session = session := congrArg Bridge.session hb
    obtain ⟨rest, hagenda, hsession⟩ := Session.perform?_cases hs
    rw [hsession]
    refine ⟨congrArg (Target.thread? · thread) (Session.target_effect _ task), ?_⟩
    rintro ⟨mode, hmode⟩
    refine ⟨mode, ?_⟩
    rw [hsession] at hmode
    cases task with
    | followUp c =>
        rw [Session.following, hagenda] at hfollowing
        cases hfollowing
    | closeQueue => cases hmode
    | callback | lastCallback | release | releaseAll | forward | command | closeGate | forwardClosed
    | announceClosed | finish => exact hmode
  · obtain rfl : w'.session = session := congrArg Bridge.session hb
    obtain ⟨-, e, rest, hevents, hsession⟩ := Session.take?_open h.stands.queue_open h.stands.live.queue hs
    have hstill := h'.stands.live.target
    rw [hsession, Session.target_handle, Session.targetAfter_withEvents] at hstill ⊢
    have hmem : e ∈ w.session.queue.events := by
      rw [hevents]
      exact List.mem_cons_self
    cases e with
    | command c =>
        -- No command waits.
        have hc : c ∈ w.session.pipeline :=
          List.mem_append_left _ (List.mem_append_right _ (mem_commandsOf.mpr hmem))
        rw [hpipeline] at hc
        cases hc
    | notification n =>
        have hid : n.thread? ≠ some thread := by
          intro hid
          have hlane := lane_of_hasStopped h.agrees hstopped
          have hown : n ∈ lane thread w.session.queue.events := mem_lane.mpr ⟨hmem, hid⟩
          rw [hlane] at hown
          cases hown
        refine ⟨(Target.report_other h.agrees.indexed w.session.breakpoints hid hstill).2.2, ?_⟩
        rintro ⟨mode, hmode⟩
        refine ⟨mode, ?_⟩
        rw [hsession, Session.queue_handle] at hmode
        rw [hevents]
        exact List.mem_cons_of_mem _ hmode

/-! ### Steps of the job -/

/-- **A step of the job**, which may be that to the end of its run. -/
theorem advance (h : Ongoing plan thread views result answers last w) {b : Bridge} {j j' : Job}
    (hjobs : w.jobs = [j]) (hstep : j.advance? w.bridge = some (b, j')) :
    j'.result? = none ∧ Reported w.session (w.advanced b [] j' []).session ∧
      (Ongoing plan thread views result answers last (w.advanced b [] j' []) ∨
        Concluding plan views result answers last (w.advanced b [] j' [])) := by
  obtain ⟨k, hk, hending, hheap, hcurtails, hviews⟩ := h.job
  rw [hjobs] at hk
  obtain rfl := List.singleton_inj.mp hk
  obtain ⟨hsteady, hsmooth⟩ := smooth_of_runsAlone h.alone hjobs hending
  obtain ⟨halts, hfollows⟩ := h.follows
  obtain ⟨hthread, -⟩ := hfollows.serves hjobs hending
  have hsplit : w.jobs = [] ++ j :: [] := hjobs
  have hnone := hsmooth.result?_eq_none hsteady hstep
  have hapart := apart_of_wakeful h.wakeful j (by rw [hjobs]; exact List.mem_cons_self)
  have halone : RunsAlone thread (.script result) (w.advanced b [] j' []) :=
    runsAlone_step h.alone hsplit hstep hapart
  have hwakeful : (w.advanced b [] j' []).Wakeful := wakeful_step h.wakeful hsplit hstep
  have hhosted (id : ThreadId) : Hosted plan.settings id (w.advanced b [] j' []) :=
    (h.hosted id).advanced hsplit hstep
  have hfollows' := follows_step h.alone h.wakeful hfollows hsplit hstep
  have hjobs' : (w.advanced b [] j' []).jobs = [j'] := by
    rw [jobs_advanced, hnone]
    rfl
  have hsession : (w.advanced b [] j' []).session = b.session :=
    congrArg Bridge.session (bridge_advanced w b [] j' [])
  obtain ⟨hcall, -⟩ := callStep_of_job hstep
  have hreported := (reported_of_callStep hcall).1
  have hshaped : ∀ p ∈ j.phase.bind Phase.pause?, p.ShapedFor j.thread := by
    have hown := (h.wakeful.shakesHands j.thread).shaped
    rwa [phaseOf_of_mem h.wakeful.distinct (by rw [hjobs]; exact List.mem_cons_self)] at hown
  have hstands : (w.advanced b [] j' []).session.Stands := by
    rw [hsession]
    exact stands_of_callStep h.stands hcall
  refine ⟨hnone, hsession ▸ hreported, ?_⟩
  -- The run goes on, or its last step is to report the end of the engine.
  by_cases hover : j'.Ending
  · obtain ⟨hsteady', hresult⟩ : j'.run.Steady ∧ j'.run.undisturbed = .script result := by
      rcases halone.job with hnil | ⟨k, hk, -, hsteady', hresult, -⟩
      · cases hjobs'.symm.trans hnil
      · rw [hjobs'] at hk
        obtain rfl := List.singleton_inj.mp hk
        exact ⟨hsteady', hresult⟩
    refine .inr ⟨.reported hwakeful.calm ?_ hjobs' (hover.resting hsteady' hresult), ?_, hstands, ?_⟩
    · rw [hsession, report_of_ending hsmooth hstep hover]
      exact Session.Unbroken.reportEnd (.inr h.stands)
    · cases hfollows' with
      | ended _ hkeeps => exact ⟨_, _, hkeeps⟩
      | ongoing hjob _ hnot =>
          rw [hjobs'] at hjob
          obtain rfl := List.singleton_inj.mp hjob
          exact absurd hover hnot
    · -- Nobody waits any more.
      refine lapses_of_waiting hwakeful hstands.live hhosted fun id p hwaits => ?_
      obtain ⟨-, reply, hphase⟩ := hover
      cases hphase.symm.trans (eq_thread_of_waiting hjobs' hwaits).2
  · refine .inl ⟨hwakeful, halone, hhosted, ⟨_, hfollows'⟩, hstands, ?_, ?_, j', hjobs', hover, ?_, ?_, ?_⟩
    · rw [hsession, hreported.target]
      exact h.recalls
    · intro other hne
      rw [hsession, lane_of_callStep hshaped (hthread ▸ hne) hcall]
      exact h.speaks other hne
    · rw [Job.heap_of_advance hstep]
      exact hheap
    · exact hsmooth.toOnCourse.curtails hsteady hstep hcurtails
    · exact (hsmooth.toOnCourse.views_suffix hsteady hstep).trans hviews

/-- **Where an answer is awaited, the stop can be read off the run alone**, with the frames that are on the stack
of the thread and all that is read of them. -/
theorem stop (h : Ongoing plan thread views result answers last w) {mode : Mode}
    (hmode : ∀ answer ∈ answers, answer = mode) (hawaits : w.AwaitsAnswer thread) :
    ∃ (shown : ShownStop) (t : DebugThread) (frames : List Frame),
      (plan.stops thread mode none views)[answers.length]? = some shown ∧ shown.thread = thread ∧
      w.session.suspendReason thread = .ok shown.reason ∧ w.session.target.thread? thread = some t ∧
      t.Shows frames w.bindings ∧ frames ≠ [] ∧ shown.frames = frames.map (Frame.shown w.bindings) := by
  obtain ⟨halts, hfollows⟩ := h.follows
  obtain ⟨k, hk, -, hheap, -, hviews⟩ := h.job
  obtain ⟨j, p, hjobs, rfl, hending, hserves, hstop, hphase, hline, hstage⟩ :=
    ongoing_of_awaits hfollows h.wakeful hawaits
  rw [hjobs] at hk
  obtain rfl := List.singleton_inj.mp hk
  obtain ⟨script, number, depth, frames, reason, left, seen, hpoints, rfl, rfl, -, hreason, hr⟩ :=
    hstage.of_stop hstop.slot hline hstop.handing hawaits.unanswered
  rw [hpoints] at hr
  obtain ⟨heap, resume, hrun⟩ : ∃ heap resume, j.run = .ask (.line script number depth frames) heap resume := by
    cases hrun : j.run with
    | done a =>
        rw [hrun] at hpoints
        cases hpoints
    | ask point heap resume =>
        rw [hrun] at hpoints
        exact ⟨heap, resume, by rw [(List.cons.inj hpoints).1]⟩
  -- What comes next in the run is what the reference is at.
  obtain ⟨shown, rest, hsuffix, hrest, hlength, hall⟩ := hr.keeps.stops_eq j.thread hmode
  obtain rfl : rest = j.run.views := by
    have hsame : rest.length = j.run.views.length := by
      rw [← List.length_map Prod.fst, hrest, ← hpoints, ← Run.map_fst_views, List.length_map]
    exact (List.suffix_of_suffix_length_le hsuffix hviews (Nat.le_of_eq hsame)).eq_of_length hsame
  rw [hrun, Run.views, Plan.stops_halt hreason] at hall
  obtain ⟨t, ht, hsuspended⟩ := Target.exists_thread_of_stateOf hstop.suspended
  obtain ⟨heapNumber, hnumber⟩ := Option.isSome_iff_exists.mp hheap
  have hmem : j ∈ w.jobs := by
    rw [hjobs]
    exact List.mem_cons_self
  have hshelters := (h.hosted j.thread).shelters j hmem
  have hshows := (h.hosted j.thread).shows hmem rfl hnumber hphase rfl ht hsuspended
  have hoptions : w.session.target.options = plan.settings.targetOptions := hserves.options
  rw [Target.shown_eq hoptions] at hshows
  refine ⟨plan.display j.thread frames reason heap, t, plan.shownFrames frames, ?_, rfl, hstop.reason, ht, hshows, ?_, ?_⟩
  · rw [hall, List.getElem?_append_right (Nat.le_of_eq hlength), hlength, Nat.sub_self]
    rfl
  · obtain ⟨root, i, site, outer, r, hbind, -, hstands, rfl, -⟩ :=
      Job.exists_site (hshelters.scripted heapNumber hnumber) hshelters.aligned hphase rfl
    refine plan.shownFrames_ne_nil hreason hstands ?_
    rw [hstands.run, hrun] at hbind
    obtain ⟨hpoint, -⟩ := Run.ask.inj hbind
    exact (Checkpoint.line.inj hpoint).1.symm
  · refine List.map_congr_left fun frame hframe => Frame.shown_congr fun scope hscope => ?_
    have hbindings := hshelters.bindings_eq hnumber hphase rfl frame (Plan.mem_of_mem_shownFrames hframe) scope
      hscope
    rw [hbindings, Job.bindings, hrun]

/-! ### Rest -/

/-- **Where everyone rests, an answer is awaited**, and nothing is left to do before it comes. -/
theorem rest (h : Ongoing plan thread views result answers last w) (hidle : w.dispatchStep? = none)
    (hrest : w.jobStep? = none) :
    w.AwaitsAnswer thread ∧ w.session.worker.agenda = [] ∧ w.session.queue.events = [] := by
  obtain ⟨j, hjobs, hending, -⟩ := h.job
  obtain ⟨-, hsmooth⟩ := smooth_of_runsAlone h.alone hjobs hending
  obtain ⟨halts, hfollows⟩ := h.follows
  obtain ⟨rfl, hserves, hstage⟩ := hfollows.serves hjobs hending
  have hstill (task : Option Task) (w' : World) : ¬ Moves w (.dispatch task) w' := by
    intro hm
    cases hm with
    | dispatch hd => cases hidle.symm.trans hd
  have hagenda : w.session.worker.agenda = [] := by
    cases hagenda : w.session.worker.agenda with
    | nil => rfl
    | cons task rest =>
        obtain ⟨w', hmove, -⟩ := exists_task h.wakeful.calm hagenda
        exact absurd hmove (hstill _ _)
  have hevents : w.session.queue.events = [] := by
    cases hevents : w.session.queue.events with
    | nil => rfl
    | cons e rest =>
        obtain ⟨w', hmove, -⟩ := exists_event h.wakeful.calm hagenda h.stands.awake h.wakeful.uncancelled
          hevents (not_ends_of_peaceful hsmooth.peaceful)
        exact absurd hmove (hstill _ _)
  -- The job waits, and nobody has decided on it.
  rw [jobStep?_single hjobs] at hrest
  obtain ⟨p, hphase, hwake⟩ := waits_of_stuck hsmooth.points_ne_nil (Option.map_eq_none_iff.mp hrest)
  have hwaits : phaseOf w.jobs j.thread = some (.waiting p) := by
    rw [phaseOf_of_mem h.wakeful.distinct (by rw [hjobs]; exact List.mem_cons_self), hphase]
  rw [hphase] at hstage
  exact ⟨awaits_at_rest h.wakeful h.stands.live hagenda hevents (slot_of_waiting h.wakeful hwaits hwake) hwaits
    hstage, hagenda, hevents⟩

/-! ### Clients -/

/-- **A client reads frames**, or asks for the end without a word to the queue. -/
theorem reread (h : Ongoing plan thread views result answers last w) {session : Session}
    (hcs : w.session.Commanded session []) (hrereads : w.session.target.Rereads session.target)
    (hstore : session.breakpoints = w.session.breakpoints)
    (hhosted : ∀ id, Hosted plan.settings id (w.withSession session)) :
    Ongoing plan thread views result answers last (w.withSession session) := by
  have hevents : session.queue.events = w.session.queue.events := by
    rw [hcs.events, List.map_nil, List.append_nil]
  obtain ⟨halts, hfollows⟩ := h.follows
  refine ⟨wakeful_commanded h.wakeful hcs, runsAlone_commanded h.alone hcs nofun, hhosted, ⟨halts, ?_⟩,
    h.stands.commanded hcs hrereads.fault, h.recalls.rereads hrereads, ?_, h.job⟩
  · cases hfollows with
    | ended hall hkeeps => exact .ended hall hkeeps
    | ongoing hjobs hthread hending hserves hstage =>
        have hfollowing : session.following = w.session.following := by
          rw [Session.following, hcs.worker]
          rfl
        have hpipeline : session.pipeline = w.session.pipeline := by
          rw [Session.pipeline, hfollowing, Session.forwards, hcs.worker, hevents]
          rfl
        refine .ongoing hjobs hthread hending ⟨(hcs.isLive).mpr hserves.live,
          hcs.target.options.trans hserves.options, hstore ▸ hserves.store, hserves.tracked⟩ ?_
        refine hstage.of_same hpipeline hfollowing.trans (fun hnil => ?_) rfl rfl rfl
        exact (congrArg (lane thread) hevents).trans hnil
  · intro other hne
    show lane other session.queue.events = []
    rw [hevents]
    exact h.speaks other hne

/-- The stop awaits its answer after that as before. -/
theorem awaits_reread (h : Ongoing plan thread views result answers last w) {session : Session}
    (hcs : w.session.Commanded session [])
    (h' : Ongoing plan thread views result answers last (w.withSession session))
    (hawaits : w.AwaitsAnswer thread) : (w.withSession session).AwaitsAnswer thread := by
  obtain ⟨reason, hstanding, hne⟩ := hawaits.hasStopped
  refine awaits_of_hasStopped h'.wakeful h'.stands.live
    ⟨reason, (hcs.target.standing h.recalls.exact.indexed thread).trans hstanding, hne⟩ ?_
  rintro ⟨mode, hmode⟩
  refine hawaits.unanswered mode ?_
  have hevents : session.queue.events = w.session.queue.events := by
    rw [hcs.events, List.map_nil, List.append_nil]
  exact hevents ▸ hmode

/-- Somebody asks for the end, and says nothing to the queue. -/
theorem asks (h : Ongoing plan thread views result answers last w) (hawaits : w.AwaitsAnswer thread)
    (requested : Bool) :
    Ongoing plan thread views result answers last
        (w.withSession { w.session with terminateRequested := requested }) ∧
      (w.withSession { w.session with terminateRequested := requested }).AwaitsAnswer thread := by
  have hcs : w.session.Commanded { w.session with terminateRequested := requested } [] :=
    .nil rfl rfl (.refl _) rfl
  have hongoing := h.reread hcs (.refl _) rfl fun other => by
    have hhosted := h.hosted other
    have htended := hhosted.tended
    exact hhosted.hears ⟨htended.exact, htended.options, htended.short, htended.frameless⟩
      ⟨.inl rfl, id, id⟩ rfl
  exact ⟨hongoing, h.awaits_reread hcs hongoing hawaits⟩

theorem showFrame (h : Ongoing plan thread views result answers last w) (hawaits : w.AwaitsAnswer thread)
    (handle : Handle) :
    Ongoing plan thread views result answers last (w.showFrame handle).2 ∧
      (w.showFrame handle).2.AwaitsAnswer thread ∧
      ∀ id, (w.showFrame handle).2.session.target.sheetsOf id = w.session.target.sheetsOf id := by
  unfold World.showFrame
  split
  · exact ⟨h, hawaits, fun _ => rfl⟩
  · have hcs := w.session.commanded_readVariables w.bindings handle.thread handle.slot
    have hrereads := w.session.rereads_readVariables w.bindings handle.thread handle.slot
    have hstore : (w.session.readVariables w.bindings handle.thread handle.slot).2.breakpoints =
        w.session.breakpoints := by
      unfold Session.readVariables
      split <;> rfl
    have hongoing := h.reread hcs hrereads hstore fun id => (h.hosted id).read handle.thread handle.slot
    exact ⟨hongoing, h.awaits_reread hcs hongoing hawaits, hrereads.sheets h.recalls.exact⟩

/-- **To go on**: the answer is accepted, and on its way. -/
theorem resume (h : Ongoing plan thread views result answers last w) (hawaits : w.AwaitsAnswer thread)
    (mode : Mode) :
    w.session.mayResume thread = .ok () ∧ (w.session.send (.resume thread mode)).1 = .ok () ∧
      Ongoing plan thread views result (answers ++ [mode]) last
        (w.withSession (w.session.send (.resume thread mode)).2) ∧
      (w.withSession (w.session.send (.resume thread mode)).2).Answered thread ∧
      (w.session.send (.resume thread mode)).2.target = w.session.target ∧
      (w.session.send (.resume thread mode)).2.terminateRequested = w.session.terminateRequested := by
  obtain ⟨q, hstop⟩ := stoppedAt_of_awaits h.wakeful hawaits
  obtain ⟨hok, hsession⟩ := resume_suspended h.agrees hstop.live hstop.suspended (hawaits.unanswered mode)
  have hmay : w.session.mayResume thread = .ok () := by
    rw [Session.resume_eq] at hok
    split at hok
    · assumption
    · cases hok
  -- What `resume` looks at before it queues its command was looked at just now.
  have hsend : w.session.send (.resume thread mode) = w.session.resume thread mode := by
    have horder : w.session.resume thread mode = w.session.order (.resume thread mode) := by
      rw [Session.resume_eq, hmay]
    rw [horder] at hok ⊢
    unfold Session.send
    split
    · next hordered => rw [hordered]
    · next hrefused =>
        rw [hrefused] at hok
        cases hok
  rw [hsend]
  obtain ⟨cs, -, hcs⟩ := w.session.commanded_resume thread mode
  have htarget : (w.session.resume thread mode).2.target = w.session.target := by
    rw [hsession]
    rfl
  obtain ⟨halts, hfollows⟩ := h.follows
  have hcall : ControlCall.resume thread mode ≠ .cancel := nofun
  have hmild : (ControlCall.resume thread mode).IsMild := trivial
  refine ⟨hmay, hok, ⟨wakeful_call h.wakeful hcall, runsAlone_call h.alone hmild, fun id => ?_,
    ⟨halts, follows_answer hfollows h.wakeful hawaits mode⟩, ?_, ?_, fun other hne => ?_, h.job⟩, ?_, htarget, ?_⟩
  · exact (h.hosted id).call (c := .resume thread mode) fun _ _ _ he => nomatch he
  · exact h.stands.commanded hcs (congrArg Target.fault htarget)
  · show (w.session.resume thread mode).2.target.Recalls last
    rw [htarget]
    exact h.recalls
  · show lane other (w.session.resume thread mode).2.queue.events = []
    rw [hcs.events, lane_append, lane_commands, List.append_nil]
    exact h.speaks other hne
  · refine ⟨mode, ?_⟩
    show _ ∈ (w.session.resume thread mode).2.queue.events
    rw [hsession]
    exact List.mem_append_right _ List.mem_cons_self
  · rw [hsession]
    rfl

/-- Where an answer is awaited, nothing is queued but, at most, the start of the engine. -/
theorem events_of_awaits (h : Ongoing plan thread views result answers last w) (hawaits : w.AwaitsAnswer thread) :
    ∀ e ∈ w.session.queue.events, e = .notification .engineStarted := by
  obtain ⟨halts, hfollows⟩ := h.follows
  obtain ⟨j, p, hjobs, rfl, hending, -, hstop, -, -⟩ := ongoing_of_awaits hfollows h.wakeful hawaits
  obtain ⟨-, hsmooth⟩ := smooth_of_runsAlone h.alone hjobs hending
  have hpipeline : w.session.forwards ++ commandsOf w.session.queue.events ++ w.session.following = [] :=
    h.pipeline_eq_nil hawaits
  intro e he
  have hmild : e.IsMild := hsmooth.peaceful.events e he
  cases e with
  | command c =>
      have hmem := List.mem_append_left w.session.following
        (List.mem_append_right w.session.forwards (mem_commandsOf.mpr he))
      rw [hpipeline] at hmem
      cases hmem
  | notification n =>
      cases hid : n.thread? with
      | some id =>
          have hlane : lane id w.session.queue.events = [] := by
            by_cases hown : id = j.thread
            · exact hown ▸ hstop.lane
            · exact h.speaks id hown
          have hmem : n ∈ lane id w.session.queue.events := mem_lane.mpr ⟨he, hid⟩
          rw [hlane] at hmem
          cases hmem
      | none =>
          cases n with
          | engineStarted => rfl
          | engineTerminated => exact absurd rfl hmild
          | scriptReady | suspended | stackFrames | resumed => cases hid

/-- Nor has the dispatcher a command in hand. -/
theorem isQuiet_of_awaits (h : Ongoing plan thread views result answers last w)
    (hawaits : w.AwaitsAnswer thread) : w.session.IsQuiet := by
  have hpipeline : w.session.forwards ++ commandsOf w.session.queue.events ++ w.session.following = [] :=
    h.pipeline_eq_nil hawaits
  obtain ⟨hleft, hfollowing⟩ := List.append_eq_nil_iff.mp hpipeline
  obtain ⟨hforwards, -⟩ := List.append_eq_nil_iff.mp hleft
  refine ⟨fun task htask => ?_, fun e he => .inl (h.events_of_awaits hawaits e he)⟩
  cases task with
  | forward c =>
      have hmem : c ∈ w.session.forwards := List.mem_filterMap.mpr ⟨_, htask, rfl⟩
      rw [hforwards] at hmem
      cases hmem
  | followUp c =>
      have hmem : c ∈ w.session.following := List.mem_filterMap.mpr ⟨_, htask, rfl⟩
      rw [hfollowing] at hmem
      cases hmem
  | callback | lastCallback | release | releaseAll | command | closeQueue | closeGate | forwardClosed
  | announceClosed | finish => trivial

/-- Whoever waits for an answer is at a line, where the run may be refused to go on. What it has printed then are
the first lines of all that it prints otherwise. -/
theorem quits_of_awaits (h : Ongoing plan thread views result answers last w) (hawaits : w.AwaitsAnswer thread)
    {j : Job} (hjobs : w.jobs = [j]) :
    ∃ i : Interpreter, i.output.toList <+: result.1.output.toList ∧
      j.run.Quits .terminated (i, .error (.refused .terminated)) := by
  obtain ⟨halts, hfollows⟩ := h.follows
  obtain ⟨k, hk, -, -, hcurtails, -⟩ := h.job
  obtain ⟨k', p, hk', rfl, hending, -, -, hphase, -⟩ := ongoing_of_awaits hfollows h.wakeful hawaits
  obtain rfl := List.singleton_inj.mp (hk.symm.trans hjobs)
  obtain rfl := List.singleton_inj.mp (hk.symm.trans hk')
  obtain ⟨-, hsmooth⟩ := smooth_of_runsAlone h.alone hjobs hending
  rw [hphase] at hsmooth
  cases hrun : k.run with
  | done a =>
      rw [hrun] at hsmooth
      exact absurd rfl hsmooth.points_ne_nil
  | ask point heap resume =>
      rw [hrun] at hcurtails hsmooth
      refine hcurtails.1 ?_ .terminated nofun
      have hcourse := hsmooth.course
      generalize hall : (Run.ask point heap resume).checkpoints = all at hcourse
      cases hcourse with
      | @within seen first points phase _ ha =>
          obtain ⟨rfl, -⟩ := List.cons.inj hall
          cases point with
          | load | line => rfl
          | started | ended => exact ha.elim

/-- **To end**: the request is accepted, and on its way; the script has printed the first lines of all that it
prints otherwise, and nothing is left to be shown but the stop that was. -/
theorem terminate (h : Ongoing plan thread views result answers last w) (hawaits : w.AwaitsAnswer thread)
    (htop : ∃ top ∈ last, w.session.target.topOf thread = some top) :
    (w.session.send .terminate).1 = .ok () ∧ (w.session.send .terminate).2.Lapses last ∧
      (w.session.send .terminate).2.Stands ∧
      ∃ i : Interpreter, i.output.toList <+: result.1.output.toList ∧
        Quitting (i, .error (.refused .terminated)) (w.withSession (w.session.send .terminate).2) none := by
  obtain ⟨halts, hfollows⟩ := h.follows
  obtain ⟨j, p, hjobs, rfl, hending, -, hstop, hphase, -⟩ := ongoing_of_awaits hfollows h.wakeful hawaits
  obtain ⟨-, hsmooth⟩ := smooth_of_runsAlone h.alone hjobs hending
  have hquiet := h.isQuiet_of_awaits hawaits
  have hsend := Session.send_fresh (c := .terminate) h.stands.queue_open fun hmem =>
    nomatch h.events_of_awaits hawaits _ hmem
  have hlapses : w.session.Lapses last := by
    refine lapses_of_waiting h.wakeful h.stands.live h.hosted fun id p hwaits => ?_
    obtain ⟨rfl, -⟩ := eq_thread_of_waiting hjobs hwaits
    exact ⟨hstop.lane, htop⟩
  obtain ⟨i, hprinted, hquits⟩ := h.quits_of_awaits hawaits hjobs
  rw [hsend]
  have hstands : (w.session.withEvents (w.session.queue.events ++ [.command .terminate])).Stands :=
    ⟨⟨h.stands.live.target, h.stands.live.queue⟩, h.stands.fault, h.stands.queue_open, h.stands.gate_open,
      h.stands.awake, h.stands.agenda⟩
  refine ⟨rfl, ⟨hlapses.exact, hlapses.shown, fun n hn => ?_⟩, hstands, i, hprinted, ?_⟩
  · rcases List.mem_append.mp hn with hold | hnew
    · exact hlapses.reports n hold
    · cases List.mem_singleton.mp hnew
  · -- The request is the only command under way, so the engine hears of it before anything else.
    refine .asked ⟨h.wakeful.calm.attached, h.wakeful.calm.traps, h.wakeful.calm.held⟩
      ⟨hquiet.agenda, fun e he => ?_⟩ (.inr hstands) hjobs hphase hquits (fun mode hmode => ?_) hsmooth.isOpen
      (.queued hstands (List.mem_append_right _ List.mem_cons_self))
    · rcases List.mem_append.mp he with hold | hnew
      · exact hquiet.events e hold
      · exact .inr (List.mem_singleton.mp hnew)
    · cases hstop.slot.symm.trans hmode

end Ongoing

end

/-! ### Before anything has happened -/

end World

end Pausepoint
