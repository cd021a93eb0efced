import Pausepoint.Proofs.World.Schedule
import Pausepoint.Proofs.World.Stage
import Pausepoint.Proofs.World.Wakeup

/-!
# Pausepoint.Proofs.World.Stepping

Stepping and breakpoints do what the reference says.

One interpreter runs a script in a fresh session, and the control side answers its stops, each with any
mode, while dispatcher and interpreter move in any order (`World.AnsweringMove`). The lines at which the
interpreter was held so far, and the answers so far, can be read off the moves. `stepping_refines` is the
main result: they are what `Plan.halts` makes of the checkpoints that the run passes without a debugger.

The invariant is `World.Follows`, which says how far the reference has come while the run is under way
(`Stage`), and that it is through with all checkpoints once the run is over.
-/

namespace Pausepoint

open Pausepoint.Language

namespace World

/-! ### Who moves when -/

/-- The control side sees a stop of a thread that it has not answered. The loading of a script is no
such stop. -/
structure AwaitsAnswer (w : World) (thread : ThreadId) : Prop where
  running : w.session.state = .running
  suspended : w.session.threadState thread = .ok .suspended
  stop : w.session.suspendReason thread ≠ .ok (some .scriptLoaded)
  unanswered : ∀ mode, .command (.resume thread mode) ∉ w.session.queue.events

/-- **Who may move**: dispatcher and jobs as they like; the control side answers the stops of a thread
in whatever mode, and does nothing else. -/
inductive AnsweringMove (thread : ThreadId) : World → Act → World → Prop
  | step {w w' : World} {act : Act} (h : Moves w act w') (hact : act.IsStep) : AnsweringMove thread w act w'
  | answer {w : World} (h : w.AwaitsAnswer thread) (mode : Mode) :
      AnsweringMove thread w (.call (.resume thread mode)) (w.withSession (w.session.resume thread mode).2)

/-- The halt of a thread that a move is, if it is one. -/
def Act.halts (thread : ThreadId) : Act → List Halt
  | .step id before after => if id = thread then Phase.halts before after else []
  | .dispatch _ | .begin _ | .call _ => []

/-- The answer to a thread that a move is, if it is one. -/
def Act.answers (thread : ThreadId) : Act → List Mode
  | .call (.resume id mode) => if id = thread then [mode] else []
  | _ => []

/-- Only the control side answers. -/
theorem Act.answers_of_step {act : Act} (h : act.IsStep) (thread : ThreadId) :
    act.answers thread = [] := by
  cases act with
  | dispatch | step => rfl
  | begin | call => exact h.elim

/-- The lines at which a thread was held, in order. -/
def haltsIn (thread : ThreadId) (trace : List Act) : List Halt :=
  trace.flatMap (Act.halts thread)

/-- The answers to a thread, in order. -/
def answersIn (thread : ThreadId) (trace : List Act) : List Mode :=
  trace.flatMap (Act.answers thread)

theorem haltsIn_snoc (thread : ThreadId) (trace : List Act) (act : Act) :
    haltsIn thread (trace ++ [act]) = haltsIn thread trace ++ act.halts thread := by
  simp [haltsIn]

theorem answersIn_snoc (thread : ThreadId) (trace : List Act) (act : Act) :
    answersIn thread (trace ++ [act]) = answersIn thread trace ++ act.answers thread := by
  simp [answersIn]

theorem answersIn_append_steps (thread : ThreadId) (trace : List Act) {acts : List Act}
    (h : ∀ act ∈ acts, act.IsStep) : answersIn thread (trace ++ acts) = answersIn thread trace := by
  have hnone : answersIn thread acts = [] := by
    unfold answersIn
    rw [List.flatMap_eq_nil_iff]
    intro act hact
    exact Act.answers_of_step (h act hact) thread
  rw [answersIn, List.flatMap_append]
  show answersIn thread trace ++ answersIn thread acts = _
  rw [hnone, List.append_nil]

theorem mildMove_of_answeringMove {thread : ThreadId} {w w' : World} {act : Act}
    (h : AnsweringMove thread w act w') : MildMove w act w' := by
  cases h with
  | step h hact => exact mildMove_of_isStep h hact
  | answer h mode => exact ⟨.call w (.resume thread mode) nofun, trivial⟩

/-! ### What calls wait for -/

section

variable {w w' : World} {thread : ThreadId}

/-- A pause that waits to be dispatched is that of a call that waits for a decision. -/
theorem waiting_of_pause (hw : w.Wakeful) (hl : w.session.IsLive) {n : Notification}
    (hmem : .notification n ∈ w.session.queue.events) (hid : n.thread? = some thread)
    (hp : n.isPause = true) : w.engine.slots.get? thread = some none ∧
      ∃ p, phaseOf w.jobs thread = some (.waiting p) ∧ p.report = n := by
  have hon := (hw.concord hl).agreesOn thread
  have hold := hw.shakesHands thread
  unfold ShakesHands at hold
  have hlane : n ∈ lane thread w.session.queue.events := mem_lane.mpr ⟨hmem, hid⟩
  have hsettled := settled_of_pause hon.own hon.fits hlane hp
  obtain ⟨before, hlast⟩ := last_of_pause hon.own hon.fits hlane hp
  rw [Target.stateOf_eq_standing] at hsettled
  obtain ⟨hslot, p, hphase⟩ := (hold.awaits hl).mp (.inl hsettled)
  have hnone : ¬ w.session.Handing thread := fun hh => hold.single hl hh hsettled
  refine ⟨hslot, p, hphase, ?_⟩
  rcases hold.source hl hnone hslot p hphase with hreport | ⟨hnil, -⟩
  · rw [hlast, List.getLast?_concat] at hreport
    exact (Option.some.inj hreport).symm
  · rw [hnil] at hlane
    cases hlane

/-- A call that waits for a decision, with nothing on its way, has its thread suspended. -/
theorem suspended_of_waiting (hw : w.Wakeful) (hl : w.session.IsLive)
    (hidle : w.session.worker.agenda = []) (hslot : w.engine.slots.get? thread = some none)
    (hwaits : ∃ p, phaseOf w.jobs thread = some (.waiting p))
    (hlane : lane thread w.session.queue.events = []) :
    w.session.target.stateOf thread = some .suspended := by
  have hold := hw.shakesHands thread
  unfold ShakesHands at hold
  rcases (hold.awaits hl).mpr ⟨hslot, hwaits⟩ with hsettled | hh
  · rw [hlane, settled_nil] at hsettled
    rw [Target.stateOf_eq_standing]
    exact hsettled
  · exact absurd hh (Session.handing_of_forwards (Session.forwards_of_idle hidle) thread)

/-- A thread is stopped, and nothing is on its way to it. -/
structure StoppedAt (w : World) (thread : ThreadId) (p : Pause) : Prop where
  live : w.session.IsLive
  suspended : w.session.target.stateOf thread = some .suspended
  reason : w.session.suspendReason thread = .ok p.report.reason?
  lane : lane thread w.session.queue.events = []
  handing : ¬ w.session.Handing thread
  slot : w.engine.slots.get? thread = some none
  waits : phaseOf w.jobs thread = some (.waiting p)

/-- **What the control side sees is so.** -/
theorem stoppedAt_of_awaits (hw : w.Wakeful) (h : w.AwaitsAnswer thread) :
    ∃ p, w.StoppedAt thread p := by
  have hl : w.session.IsLive := by
    refine ⟨?_, hw.uncancelled⟩
    intro hs
    cases h.running.symm.trans hs
  obtain ⟨t, hthread, hstate⟩ : ∃ t, w.session.target.thread? thread = some t ∧
      t.state = .suspended := by
    have hsuspended := h.suspended
    unfold Session.threadState at hsuspended
    split at hsuspended
    · next t ht => exact ⟨t, ht, Except.ok.inj hsuspended⟩
    · cases hsuspended
  have hsus : w.session.target.stateOf thread = some .suspended := by
    rw [Target.stateOf, hthread, Option.map_some, hstate]
  have hon := (hw.concord hl).agreesOn thread
  have hfits := hon.fits
  rw [hsus] at hfits
  have hlane := eq_nil_of_fits_suspended hon.own hfits
  have hold := hw.shakesHands thread
  unfold ShakesHands at hold
  -- Who is suspended has no report queued, so the handshake finds its slot open and its call waiting.
  have hsettled : settled ((w.session.target.standing thread).map Prod.fst)
      (Pausepoint.lane thread w.session.queue.events) = some .suspended := by
    rw [hlane, settled_nil, ← Target.stateOf_eq_standing, hsus]
  obtain ⟨hslot, p, hphase⟩ := (hold.awaits hl).mp (.inl hsettled)
  have hnone : ¬ w.session.Handing thread := fun hh => hold.single hl hh hsettled
  refine ⟨p, hl, hsus, ?_, hlane, hnone, hslot, hphase⟩
  rcases hold.source hl hnone hslot p hphase with hreport | ⟨-, hstand, -⟩
  · rw [hlane] at hreport
    cases hreport
  · rw [Target.standing, hthread] at hstand
    rw [Session.suspendReason, hthread]
    exact congrArg Except.ok (congrArg Prod.snd (Option.some.inj hstand))

/-! ### The invariant -/

variable {plan : Plan} {total : List Checkpoint} {answers : List Mode} {halts : List Halt}

/-- **The invariant**: how far the reference has come, after some answers and halts. -/
inductive Follows (plan : Plan) (thread : ThreadId) (total : List Checkpoint) (answers : List Mode)
    (halts : List Halt) (w : World) : Prop
  /-- The run is under way. -/
  | ongoing {j : Job} (hjobs : w.jobs = [j]) (hthread : j.thread = thread) (hending : ¬ j.Ending)
      (hserves : plan.Serves w.bridge)
      (hstage : Stage plan thread total w.bridge answers halts j.run.checkpoints j.phase)
  /-- It is over, or about to be. -/
  | ended {pending : Option StepRequest} (hending : ∀ j ∈ w.jobs, j.Ending)
      (hkeeps : plan.Keeps total answers halts pending [])

/-- What is known of a run that is under way. -/
theorem smooth_of_runsAlone {result : JobResult} (h : RunsAlone thread result w) {j : Job}
    (hjobs : w.jobs = [j]) (hending : ¬ j.Ending) :
    j.run.Steady ∧ Smooth j.thread w.bridge j.run.checkpoints j.phase := by
  rcases h.job with hnone | ⟨k, hk, rfl, hsteady, -, hsmooth | hover⟩
  · rw [hnone] at hjobs
    cases hjobs
  · rw [hjobs] at hk
    obtain rfl := List.singleton_inj.mp hk
    exact ⟨hsteady, hsmooth⟩
  · rw [hjobs] at hk
    obtain rfl := List.singleton_inj.mp hk
    exact absurd hover hending

/-- A step of the dispatcher. -/
theorem follows_dispatch {result : JobResult} (halone : RunsAlone thread result w) (hw : w.Wakeful)
    (h : Follows plan thread total answers halts w) {reports : List Report}
    (hd : w.dispatchStep? = some (w', reports)) : Follows plan thread total answers halts w' := by
  obtain ⟨-, ⟨f, hmap, hf⟩, hb⟩ := dispatchStep?_cases hw.calm hd
  cases h with
  | ended hending hkeeps =>
      refine .ended ?_ hkeeps
      rw [hmap]
      intro k hk
      obtain ⟨j, hj, rfl⟩ := List.mem_map.mp hk
      obtain ⟨-, hphase, hrun⟩ := hf j
      unfold Job.Ending
      rw [hphase, hrun]
      exact hending j hj
  | @ongoing j hjobs hthread hending hserves hstage =>
      subst hthread
      obtain ⟨-, hsmooth⟩ := smooth_of_runsAlone halone hjobs hending
      obtain ⟨hthread, hphase, hrun⟩ := hf j
      have hconcord := hw.concord hserves.live
      have hown : phaseOf w.jobs j.thread = j.phase :=
        phaseOf_of_mem hw.distinct (by rw [hjobs]; exact List.mem_cons_self)
      -- The job is where it was, so what matters is the other side.
      suffices hboth : plan.Serves w'.bridge ∧
          Stage plan j.thread total w'.bridge answers halts j.run.checkpoints j.phase by
        refine .ongoing (j := f j) ?_ hthread ?_ hboth.1 ?_
        · rw [hmap, hjobs, List.map_singleton]
        · unfold Job.Ending
          rw [hphase, hrun]
          exact hending
        · rw [hphase, hrun]
          exact hboth.2
      rcases hb with ⟨task, session, hs, hb⟩ | ⟨session, -, hs, hb⟩
      · rw [hb]
        exact ⟨hserves.perform hsmooth.peaceful hs, hstage.perform hsmooth.peaceful hs
          (Session.lane_perform hw.concord hs hserves.live j.thread)⟩
      · rw [hb]
        refine ⟨hserves.take hsmooth.peaceful hs, ?_⟩
        obtain ⟨hidle, e, rest, hevents, rfl⟩ :=
          Session.take?_open hsmooth.peaceful.queue_open hsmooth.peaceful.uncancelled hs
        cases e with
        | notification n =>
            refine hstage.report hserves hconcord hidle hevents ?_
            intro hp
            obtain ⟨id, hid⟩ : ∃ id, n.thread? = some id := by
              cases n with
              | scriptReady id | suspended id => exact ⟨id, rfl⟩
              | engineStarted | engineTerminated | stackFrames | resumed => cases hp
            have hfirst : Event.notification n ∈ w.session.queue.events := by
              show _ ∈ w.bridge.session.queue.events
              rw [hevents]
              exact List.mem_cons_self
            -- A pause that is taken is that of the one call that waits.
            obtain ⟨hslot, p, hwaits, hreport⟩ := waiting_of_pause hw hserves.live hfirst hid hp
            obtain ⟨k, hk, rfl, -⟩ := exists_job_of_phaseOf hwaits
            rw [hjobs] at hk
            obtain rfl := List.mem_singleton.mp hk
            exact ⟨hid, hslot, p, hown.symm.trans hwaits, hreport⟩
        | command c =>
            refine hstage.command hserves hconcord.indexed hidle hevents ?_
            intro hslot hwaits hlane
            rw [← hown] at hwaits
            exact suspended_of_waiting hw hserves.live hidle hslot hwaits hlane

theorem follows_step {result : JobResult} (halone : RunsAlone thread result w) (hw : w.Wakeful)
    (h : Follows plan thread total answers halts w) {b : Bridge} {before after : List Job} {j j' : Job}
    (hjobs : w.jobs = before ++ j :: after) (hstep : j.advance? w.bridge = some (b, j')) :
    Follows plan thread total answers
      (halts ++ (Act.step j.thread j.phase j'.phase).halts thread)
      (w.advanced b before j' after) := by
  have hmem : j ∈ w.jobs := by
    rw [hjobs]
    exact List.mem_append_right _ List.mem_cons_self
  have hown : phaseOf w.jobs j.thread = j.phase := phaseOf_of_mem hw.distinct hmem
  rcases halone.job with hnone | ⟨k, hk, rfl, hsteady, -, -⟩
  · rw [hnone] at hmem
    cases hmem
  -- There is only one job, so the step is one of the script.
  obtain ⟨rfl, rfl, rfl⟩ := splits_single hk hjobs
  rw [Act.halts, if_pos rfl]
  cases h with
  | ended hending hkeeps =>
      have hover := hending j hmem
      have hnone : Phase.halts j.phase j'.phase = [] := by
        obtain ⟨-, reply, hphase⟩ := hover
        rw [hphase]
        rfl
      refine .ended ?_ (by rw [hnone, List.append_nil]; exact hkeeps)
      rw [jobs_advanced, hover.step hsteady hstep]
      intro k hk
      cases hk
  | @ongoing k hjobs' hthread hending hserves hstage =>
      rw [hk] at hjobs'
      obtain rfl := List.singleton_inj.mp hjobs'
      obtain ⟨-, hsmooth⟩ := smooth_of_runsAlone halone hk hending
      have hslot (p : Pause) (hp : j.phase = some (.reporting p)) :
          w.bridge.engine.slots.get? j.thread = some none := by
        have hold := hw.shakesHands j.thread
        unfold ShakesHands at hold
        rw [hown, hp] at hold
        exact hold.slot_of_reporting
      have hjobs' : (w.advanced b [] j' []).jobs = [j'] := by
        rw [jobs_advanced, hsmooth.result?_eq_none hsteady hstep]
        rfl
      obtain ⟨hcall, hthread'⟩ := callStep_of_job hstep
      have hnext := hstage.job hsteady hserves hsmooth hslot hstep
      -- Either the run has come to its end by this step, or it is at the next stage.
      by_cases hover : j'.Ending
      · obtain ⟨pending, hkeeps⟩ : ∃ pending,
            plan.Keeps total answers (halts ++ Phase.halts j.phase j'.phase) pending [] := by
          rcases hnext with hstage' | ⟨-, hkeeps⟩
          · obtain ⟨hpoints, reply, hphase⟩ := hover
            rw [hpoints, hphase] at hstage'
            rw [hphase]
            exact hstage'.finish
          · exact hkeeps
        refine .ended ?_ hkeeps
        rw [hjobs']
        intro k hk
        obtain rfl := List.mem_singleton.mp hk
        exact hover
      · rcases hnext with hstage' | ⟨hover', -⟩
        · refine .ongoing hjobs' hthread' hover ?_ ?_
          · rw [bridge_advanced]
            exact hserves.call hcall
          · rw [bridge_advanced]
            exact hstage'
        · exact absurd hover' hover

/-- Where the control side sees a stop, the run is under way. -/
theorem ongoing_of_awaits (h : Follows plan thread total answers halts w) (hw : w.Wakeful)
    (hawaits : w.AwaitsAnswer thread) :
    ∃ j p, w.jobs = [j] ∧ j.thread = thread ∧ ¬ j.Ending ∧ plan.Serves w.bridge ∧
      w.StoppedAt thread p ∧ j.phase = some (.waiting p) ∧ p.report.reason? ≠ some .scriptLoaded ∧
      Stage plan thread total w.bridge answers halts j.run.checkpoints (some (.waiting p)) := by
  obtain ⟨p, hstop⟩ := stoppedAt_of_awaits hw hawaits
  obtain ⟨j, hj, hthread, hphase⟩ := exists_job_of_phaseOf hstop.waits
  have hline : p.report.reason? ≠ some .scriptLoaded := by
    intro hloaded
    refine hawaits.stop ?_
    rw [hstop.reason, hloaded]
  cases h with
  | ended hending =>
      obtain ⟨-, reply, hreturned⟩ := hending j hj
      cases hphase.symm.trans hreturned
  | @ongoing k hjobs hthread' hending hserves hstage =>
      rw [hjobs] at hj
      obtain rfl := List.mem_singleton.mp hj
      rw [hphase] at hstage
      exact ⟨j, p, hjobs, hthread, hending, hserves, hstop, hphase, hline, hstage⟩

/-- The control side answers a stop. -/
theorem follows_answer (h : Follows plan thread total answers halts w) (hw : w.Wakeful)
    (hawaits : w.AwaitsAnswer thread) (mode : Mode) :
    Follows plan thread total (answers ++ [mode]) halts
      (w.withSession (w.session.resume thread mode).2) := by
  obtain ⟨j, p, hjobs, hthread, hending, hserves, hstop, hphase, hline, hstage⟩ :=
    ongoing_of_awaits h hw hawaits
  obtain ⟨-, hresume⟩ := resume_suspended (hw.concord hstop.live) hstop.live hstop.suspended
    (hawaits.unanswered mode)
  rw [hresume]
  refine .ongoing hjobs hthread hending ?_ ?_
  · exact ⟨⟨hserves.live.target, hserves.live.queue⟩, hserves.options, hserves.store, hserves.tracked⟩
  · rw [hphase]
    exact hstage.answer hstop.slot hline hstop.handing hawaits.unanswered hstop.lane mode

/-- **Every move keeps the invariant.** -/
theorem follows_answeringMove {result : JobResult} (halone : RunsAlone thread result w) (hw : w.Wakeful)
    (h : Follows plan thread total answers halts w) {act : Act} (hm : AnsweringMove thread w act w') :
    Follows plan thread total (answers ++ act.answers thread) (halts ++ act.halts thread) w' := by
  cases hm with
  | answer hawaits mode =>
      rw [Act.answers, if_pos rfl, Act.halts, List.append_nil]
      exact follows_answer h hw hawaits mode
  | step hmove hact =>
      rw [Act.answers_of_step hact, List.append_nil]
      cases hmove with
      | dispatch hd hends =>
          rw [Act.halts, List.append_nil]
          exact follows_dispatch halone hw h hd
      | step hjobs hstep => exact follows_step halone hw h hjobs hstep
      | @giveUp b before after j j' hjobs hgive =>
          rw [giveUp?_of_wakeful hw j] at hgive
          cases hgive
      | begin | call => exact hact.elim

/-! ### What follows from it -/

namespace Follows

theorem isPrefix (h : Follows plan thread total answers halts w) :
    halts <+: plan.halts none total answers := by
  cases h with
  | ended hending hkeeps => exact hkeeps.isPrefix
  | ongoing hjobs hthread hending hserves hstage => exact hstage.isPrefix

/-- Where the control side sees a stop, it is the last one of the reference. -/
theorem stopped (h : Follows plan thread total answers halts w) (hw : w.Wakeful)
    (hawaits : w.AwaitsAnswer thread) :
    halts = plan.halts none total answers ∧
      ∃ halt, halts.getLast? = some halt ∧
        w.session.suspendReason thread = .ok (some halt.reason) := by
  obtain ⟨j, p, -, -, -, -, hstop, -, hline, hstage⟩ := ongoing_of_awaits h hw hawaits
  obtain ⟨script, number, depth, frames, reason, left, seen, hpoints, rfl, rfl, -, hreason, hr⟩ :=
    hstage.of_stop hstop.slot hline hstop.handing hawaits.unanswered
  rw [hpoints] at hr
  exact ⟨(hr.keeps.halted hreason).symm, _, List.getLast?_concat, hstop.reason⟩

/-- Once the run is over, there is no more to come. -/
theorem finished (h : Follows plan thread total answers halts w) (hjobs : w.jobs = []) :
    halts = plan.halts none total answers := by
  cases h with
  | ended hending hkeeps => exact hkeeps.finish.symm
  | ongoing hjob =>
      rw [hjobs] at hjob
      cases hjob

end Follows

/-! ### Progress -/

/-- A job that makes no step waits. -/
theorem waits_of_stuck {b : Bridge} {j : Job} (hpoints : j.run.checkpoints ≠ [])
    (h : j.advance? b = none) :
    ∃ p, j.phase = some (.waiting p) ∧ b.engine.wakening? j.thread = none := by
  unfold Job.advance? at h
  split at h
  · next result hrun =>
      rw [hrun] at hpoints
      exact absurd rfl hpoints
  · split at h
    · cases h
    · cases h
    · next phase hne hphase =>
        have hstuck := Option.map_eq_none_iff.mp h
        -- All phases but the wait have a next step.
        cases phase with
        | waiting p =>
            refine ⟨p, hphase, ?_⟩
            unfold Phase.advance? at hstuck
            dsimp only at hstuck
            split at hstuck
            · cases hstuck
            · cases hstuck
            · assumption
        | entering r =>
            unfold Phase.advance? at hstuck
            dsimp only at hstuck
            split at hstuck <;> cases hstuck
        | reporting p =>
            unfold Phase.advance? at hstuck
            dsimp only at hstuck
            split at hstuck <;> cases hstuck
        | returned reply => exact (hne reply rfl).elim
        | opening | confirming | abandoning | excusing => cases hstuck

/-- The slot of a call that nothing has ended is empty. -/
theorem slot_of_waiting (hw : w.Wakeful) {p : Pause}
    (hwaits : phaseOf w.jobs thread = some (.waiting p)) (hwake : w.engine.wakening? thread = none) :
    w.engine.slots.get? thread = some none := by
  have hold := hw.shakesHands thread
  unfold ShakesHands at hold
  rw [hwaits] at hold
  obtain ⟨content, hcontent⟩ : ∃ content, w.engine.slots.get? thread = some content :=
    Option.isSome_iff_exists.mp hold.slotted
  cases content with
  | none => exact hcontent
  | some mode =>
      unfold Engine.wakening? at hwake
      rw [hcontent] at hwake
      cases hwake

/-- Nothing in a peaceful session ends everything. -/
theorem not_ends_of_peaceful {s : Session} (h : s.Peaceful) : ¬ Ends s := by
  intro hends
  obtain ⟨-, hhead⟩ := hends
  cases hevents : s.queue.events with
  | nil =>
      rw [hevents] at hhead
      rcases hhead with he | he
      · cases he
      · cases he
  | cons e rest =>
      have hmild : e.IsMild := h.events e (by rw [hevents]; exact List.mem_cons_self)
      rw [hevents, List.head?_cons] at hhead
      rcases hhead with he | he
      · obtain rfl := Option.some.inj he
        exact hmild
      · obtain rfl := Option.some.inj he
        exact hmild

/-- A thread that is suspended otherwise than by a load awaits an answer, if none is queued. -/
theorem awaits_of_stop (hrunning : w.session.state = .running) (hevents : w.session.queue.events = [])
    {t : DebugThread} (hthread : w.session.target.thread? thread = some t)
    (hstate : t.state = .suspended) (hlast : t.lastSuspend ≠ some .scriptLoaded) :
    w.AwaitsAnswer thread := by
  refine ⟨hrunning, ?_, ?_, ?_⟩
  · rw [Session.threadState, hthread, ← hstate]
  · rw [Session.suspendReason, hthread]
    intro hloaded
    exact hlast (Except.ok.inj hloaded)
  · intro mode
    rw [hevents]
    exact List.not_mem_nil

/-- **At rest the control side sees a stop.** -/
theorem awaits_at_rest (hw : w.Wakeful) (hl : w.session.IsLive)
    (hagenda : w.session.worker.agenda = []) (hevents : w.session.queue.events = [])
    (hslot : w.engine.slots.get? thread = some none) {p : Pause}
    (hwaits : phaseOf w.jobs thread = some (.waiting p)) {points : List Checkpoint}
    (hstage : Stage plan thread total w.bridge answers halts points (some (.waiting p))) :
    w.AwaitsAnswer thread := by
  obtain ⟨⟨frames, reason, hreport⟩, hstand⟩ :=
    suspended_at_rest hw hl hagenda hevents hwaits hslot
  have hpipeline : w.session.pipeline = [] := by
    rw [Session.pipeline_of_idle hagenda, hevents]
    rfl
  have hreason := hstage.reason_of_rest hslot hpipeline hreport
  obtain ⟨t, hthread, hboth⟩ := Option.map_eq_some_iff.mp hstand
  obtain ⟨hstate, hlast⟩ := Prod.mk.inj hboth
  have hsus : w.session.target.stateOf thread = some .suspended := by
    rw [Target.stateOf, hthread, Option.map_some, hstate]
  refine awaits_of_stop ((hw.concord hl).running hl hsus) hevents hthread hstate ?_
  rw [hlast, hreport]
  intro he
  exact hreason (Option.some.inj he)

/-- **Until the run is over, someone may move.** -/
theorem exists_answeringMove {result : JobResult} (halone : RunsAlone thread result w) (hw : w.Wakeful)
    (h : Follows plan thread total answers halts w) (hjob : w.jobs ≠ []) :
    ∃ act w', AnsweringMove thread w act w' := by
  obtain ⟨j, hj, hthread⟩ : ∃ j, w.jobs = [j] ∧ j.thread = thread := by
    rcases halone.job with hnone | ⟨j, hj, hthread, -⟩
    · exact absurd hnone hjob
    · exact ⟨j, hj, hthread⟩
  subst hthread
  have hmem : j ∈ w.jobs := by
    rw [hj]
    exact List.mem_cons_self
  cases hstep : j.advance? w.bridge with
  | some next =>
      obtain ⟨b, j'⟩ := next
      have hjobs : w.jobs = [] ++ j :: [] := hj
      exact ⟨_, _, .step (.step hjobs hstep) trivial⟩
  | none =>
      cases h with
      | ended hending =>
          obtain ⟨hpoints, reply, hphase⟩ := hending j hmem
          obtain ⟨p, hwaits, -⟩ := waits_of_stuck (by rw [hpoints]; exact List.cons_ne_nil _ _) hstep
          cases hphase.symm.trans hwaits
      | @ongoing k hjobs hthread hending hserves hstage =>
          rw [hj] at hjobs
          obtain rfl := List.singleton_inj.mp hjobs
          obtain ⟨-, hsmooth⟩ := smooth_of_runsAlone halone hj hending
          obtain ⟨p, hphase, hwake⟩ := waits_of_stuck hsmooth.points_ne_nil hstep
          have hwaits : phaseOf w.jobs j.thread = some (.waiting p) :=
            (phaseOf_of_mem hw.distinct hmem).trans hphase
          rw [hphase] at hstage
          -- The call waits, so that it is the dispatcher's turn, or the control side's.
          cases hagenda : w.session.worker.agenda with
          | cons task rest =>
              obtain ⟨w', hmove, -⟩ := exists_task hw.calm hagenda
              exact ⟨_, w', .step hmove trivial⟩
          | nil =>
              cases hevents : w.session.queue.events with
              | cons e rest =>
                  obtain ⟨w', hmove, -⟩ := exists_event hw.calm hagenda
                    (hw.concord hserves.live).awake hw.uncancelled hevents
                    (not_ends_of_peaceful hsmooth.peaceful)
                  exact ⟨_, w', .step hmove trivial⟩
              | nil =>
                  have hawaits := awaits_at_rest hw hserves.live hagenda hevents
                    (slot_of_waiting hw hwaits hwake) hwaits hstage
                  exact ⟨_, _, .answer hawaits .resume⟩

end

/-! ### The main result -/

/-- Before anything has happened, the reference has come nowhere. -/
theorem follows_aboutToRun (settings : DebuggerSettings) (breakpoints : List Breakpoint)
    (thread : ThreadId) {i : Interpreter} (hi : i.IsFresh) {script : Script}
    (hid : script.id.number < i.nextScript) :
    Follows ⟨settings, breakpoints, script.id⟩ thread (i.run script).checkpoints [] []
      (aboutToRun settings breakpoints thread i script) := by
  obtain ⟨store, hsession, hstore⟩ := Session.addBreakpoints_fresh (s := Session.create settings)
    rfl BreakpointStore.holds_empty breakpoints
  rw [List.append_nil] at hstore
  have hrun : (Job.ofScript thread i script).run.checkpoints = (i.run script).checkpoints := by
    show ((i.run script).bind _).checkpoints = _
    rw [Run.checkpoints_bind, Run.checkpoints, List.append_nil]
  have hbridge : (aboutToRun settings breakpoints thread i script).bridge =
      { session := { Session.create settings with breakpoints := store },
        engine := .create settings } := by
    unfold aboutToRun
    rw [bridge_begin, hsession]
    rfl
  refine .ongoing (j := .ofScript thread i script) ?_ rfl ?_ ?_ ?_
  · unfold aboutToRun
    rw [jobs_begin]
    rfl
  · intro hending
    obtain ⟨-, reply, hphase⟩ := hending
    cases hphase
  · rw [hbridge]
    refine ⟨⟨?_, rfl⟩, rfl, hstore, rfl⟩
    intro hs
    cases hs
  · rw [hbridge, hrun]
    refine .ahead rfl ⟨Plan.Keeps.start, [], script.id.number, ahead_run hi hid, ?_, ?_, ?_⟩
    · intro s hs
      cases hs
    · intro id _
      rfl
    · intro s hs
      cases hs

/-- **Stepping and breakpoints do what the reference says.** One interpreter on which nothing has run
yet runs a script, whose number was taken from it, in a fresh session whose pauses have no bound, with
any other settings and any breakpoints; the control side answers each stop in any mode, and does nothing
else. However dispatcher and interpreter take turns:

* the lines at which it was held so far are the first ones of the reference for the answers so far;
* where the control side sees a stop that it has not answered, they are all of the reference, and it
  sees the reason of the last one;
* once the run is over, they are all of the reference;
* until then someone may move. -/
theorem stepping_refines {settings : DebuggerSettings} (ht : settings.resumeTimeout = none)
    {breakpoints : List Breakpoint} {thread : ThreadId} {i : Interpreter} (hi : i.IsFresh)
    {script : Script} (hid : script.id.number < i.nextScript) {trace : List Act} {w : World}
    (h : Execution (AnsweringMove thread) (aboutToRun settings breakpoints thread i script) trace w) :
    haltsIn thread trace <+: Plan.halts ⟨settings, breakpoints, script.id⟩ none
        (i.run script).checkpoints (answersIn thread trace) ∧
      (w.AwaitsAnswer thread →
        haltsIn thread trace = Plan.halts ⟨settings, breakpoints, script.id⟩ none
            (i.run script).checkpoints (answersIn thread trace) ∧
          ∃ halt, (haltsIn thread trace).getLast? = some halt ∧
            w.session.suspendReason thread = .ok (some halt.reason)) ∧
      (w.jobs = [] → haltsIn thread trace = Plan.halts ⟨settings, breakpoints, script.id⟩ none
        (i.run script).checkpoints (answersIn thread trace)) ∧
      (w.jobs ≠ [] → ∃ act w', AnsweringMove thread w act w') := by
  have hmild {trace : List Act} {w : World}
      (h : Execution (AnsweringMove thread) (aboutToRun settings breakpoints thread i script) trace w) :
      RunsAlone thread (.script (i.run script).undisturbed) w ∧ w.Wakeful := by
    obtain ⟨halone, hwakeful⟩ := runsAlone_of_execution hi
      (h.mono fun hm => ⟨mildMove_of_answeringMove hm, fun _ => .inl ht⟩)
    exact ⟨halone, hwakeful ht⟩
  -- Every move keeps to the reference, whatever was answered so far.
  have hfollows : Follows ⟨settings, breakpoints, script.id⟩ thread (i.run script).checkpoints
      (answersIn thread trace) (haltsIn thread trace) w := by
    refine h.invariant (P := fun trace w => Follows ⟨settings, breakpoints, script.id⟩ thread
      (i.run script).checkpoints (answersIn thread trace) (haltsIn thread trace) w) ?_ ?_
    · exact follows_aboutToRun settings breakpoints thread hi hid
    · intro trace w act w' hbefore hfollows hm
      obtain ⟨halone, hw⟩ := hmild hbefore
      rw [answersIn_snoc, haltsIn_snoc]
      exact follows_answeringMove halone hw hfollows hm
  obtain ⟨halone, hw⟩ := hmild h
  refine ⟨hfollows.isPrefix, ?_, ?_, exists_answeringMove halone hw hfollows⟩
  · exact hfollows.stopped hw
  · exact hfollows.finished

/-! ### A step over a call -/

/-- What there is to be seen of a stop, if nothing waits to be dispatched. -/
theorem awaits_of_seen {w : World} {thread : ThreadId} (hrunning : w.session.state = .running)
    (hevents : w.session.queue.events = [])
    (hseen : ((w.session.target.thread? thread).any fun t =>
      t.state == .suspended && t.lastSuspend != some .scriptLoaded) = true) :
    w.AwaitsAnswer thread := by
  obtain ⟨t, hthread, ht⟩ := (Option.any_eq_true _ _).mp hseen
  rw [Bool.and_eq_true, beq_iff_eq, bne_iff_ne] at ht
  exact awaits_of_stop hrunning hevents hthread ht.1 ht.2

/-- A script that calls a function. -/
def caller : Script :=
  { id := ⟨0⟩, source := "fn f\nprint 1\nend\ncall f\nprint 2", resource := some "main" }

/-- The world at the call, where a breakpoint is. -/
def stoppedAtCall : World :=
  ((aboutToRun {} [{ resource := "main", line := 4 }] ⟨1⟩ {} caller).settleFrom [] 36).1

/-- The world after the step over the call. -/
def stoppedAfterCall : World :=
  ((stoppedAtCall.withSession (stoppedAtCall.session.resume ⟨1⟩ .stepOver).2).settleFrom [] 19).1

/-- A step over a call goes to the line behind it. -/
theorem stepping_refines_caller :
    ∃ trace, Execution (AnsweringMove ⟨1⟩) (aboutToRun {} [{ resource := "main", line := 4 }] ⟨1⟩ {} caller)
        trace stoppedAfterCall ∧
      answersIn ⟨1⟩ trace = [.stepOver] ∧
      haltsIn ⟨1⟩ trace = [⟨some "main", 4, 1, .breakpoint⟩, ⟨some "main", 5, 1, .stepEnd⟩] := by
  have h₀ : Execution (AnsweringMove ⟨1⟩)
      (aboutToRun {} [{ resource := "main", line := 4 }] ⟨1⟩ {} caller) [] _ := .start
  obtain ⟨acts₁, h₁, hsteps₁⟩ := execution_of_settleFrom .step h₀ 36 (by decide +kernel)
  have hstopped : stoppedAtCall.AwaitsAnswer ⟨1⟩ :=
    awaits_of_seen (by decide +kernel) (by decide +kernel) (by decide +kernel)
  obtain ⟨acts₂, h₂, hsteps₂⟩ :=
    execution_of_settleFrom .step (h₁.next (.answer hstopped .stepOver)) 19 (by decide +kernel)
  have hanswers : answersIn ⟨1⟩ (([] ++ acts₁) ++ [.call (.resume ⟨1⟩ .stepOver)] ++ acts₂) =
      [.stepOver] := by
    rw [answersIn_append_steps _ _ hsteps₂, answersIn_snoc, answersIn_append_steps _ _ hsteps₁]
    rfl
  refine ⟨_, h₂, hanswers, ?_⟩
  have hfresh : (({} : Interpreter)).IsFresh := ⟨rfl, rfl⟩
  obtain ⟨-, hall, -⟩ := stepping_refines rfl hfresh (by decide) h₂
  obtain ⟨hsame, -⟩ := hall (awaits_of_seen (by decide +kernel) (by decide +kernel) (by decide +kernel))
  rw [hsame, hanswers]
  decide +kernel

/-! ### A number that is given twice -/

/-- A script that includes another one. Its number was not taken from the interpreter. -/
def numberedOne : Script :=
  { id := ⟨1⟩, source := "include lib\nprint 2", resource := some "main" }

/-- An interpreter that finds what is included. The first number it gives is 1. -/
def withLib : Interpreter :=
  { resources := Table.empty.insert "lib" "print 1" }

/-- The world before anything has happened; there is a breakpoint on the first line of the root script. -/
def aboutToInclude : World :=
  aboutToRun {} [{ resource := "main", line := 1 }] ⟨1⟩ withLib numberedOne

/-- The root script is loaded and stops on its first line. -/
def toTheBreakpoint : List Choice :=
  .job :: List.replicate 2 .dispatch ++ List.replicate 5 .job ++ List.replicate 14 .dispatch ++
    List.replicate 2 .job ++ .dispatch :: List.replicate 5 .job ++ List.replicate 3 .dispatch

/-- The decision is handed over, the other script is loaded, and it stops on its first line as well. -/
def intoTheInclude : List Choice :=
  List.replicate 5 .dispatch ++ List.replicate 2 .job ++ .dispatch :: List.replicate 5 .job ++
    List.replicate 9 .dispatch ++ List.replicate 2 .job ++ .dispatch :: List.replicate 5 .job ++
    List.replicate 3 .dispatch

/-- A schedule of steps is one in which the control side keeps out. -/
theorem answeringMove_of_played {w start : World} {thread : ThreadId} {trace : List Act}
    (h : Execution (AnsweringMove thread) start trace w) (schedule : List Choice)
    (hfree : schedule.all Choice.isFree = true) :
    Execution (AnsweringMove thread) start (trace ++ (w.played schedule).1) (w.played schedule).2 :=
  h.append ((execution_played w schedule).restrict fun hact hm => .step hm (isStep_of_played hfree _ hact))

/-- **A number that is given twice.** The root script goes by the number that the interpreter gives to the
script it includes. The engine keeps breakpoints by number, and so it holds the included script, where there
is none; the reference is held only once. -/
theorem shared_number_is_held : ∃ trace w,
    Execution (AnsweringMove ⟨1⟩) aboutToInclude trace w ∧ w.AwaitsAnswer ⟨1⟩ ∧
      answersIn ⟨1⟩ trace = [.resume] ∧
      haltsIn ⟨1⟩ trace = [⟨some "main", 1, 1, .breakpoint⟩, ⟨some "lib", 1, 2, .breakpoint⟩] ∧
      Plan.halts ⟨{}, [{ resource := "main", line := 1 }], numberedOne.id⟩ none
        (withLib.run numberedOne).checkpoints (answersIn ⟨1⟩ trace) =
          [⟨some "main", 1, 1, .breakpoint⟩] := by
  have hstart : Execution (AnsweringMove ⟨1⟩) aboutToInclude [] aboutToInclude := .start
  have hfirst := answeringMove_of_played hstart toTheBreakpoint (by decide)
  have hstopped : (aboutToInclude.played toTheBreakpoint).2.AwaitsAnswer ⟨1⟩ :=
    awaits_of_seen (by decide +kernel) (by decide +kernel) (by decide +kernel)
  have hsecond := answeringMove_of_played (hfirst.next (.answer hstopped .resume)) intoTheInclude (by decide)
  refine ⟨_, _, hsecond, ?_, by decide +kernel, by decide +kernel, by decide +kernel⟩
  exact awaits_of_seen (by decide +kernel) (by decide +kernel) (by decide +kernel)

end World

end Pausepoint
