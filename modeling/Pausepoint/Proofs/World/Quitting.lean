import Pausepoint.Proofs.Session.Parting
import Pausepoint.Proofs.World.Showing
import Pausepoint.Proofs.World.Unheld
import Pausepoint.Proofs.World.Finality
import Pausepoint.Proofs.World.Transparency
import Pausepoint.World.Settling

/-!
# Pausepoint.Proofs.World.Quitting

How a script ends that is asked to end while it is held.

The request reaches the engine, which wakes the call up with a refusal; the script, which is refused to go on,
reports the end of its engine and is over. `quitting_step` says that every step keeps to this, in whatever order
dispatcher and script take turns, and `over_of_rest` that nobody rests before the script is over.

The invariant is `World.Quitting`. On the side of the session it takes no more than that nothing in the
queue or on the agenda lets anyone go on (`Session.IsQuiet`), and that the request is on its way until the
engine has it (`Session.Heading`).
-/

namespace Pausepoint

open Pausepoint.Language

/-! ### What is seen of it -/

/-- The outcome of a script that is over. -/
def Report.outcome? : Report → Option Outcome
  | .finished _ (.script outcome) => some outcome
  | .callback .. | .command _ | .finished _ (.call _) => none

/-! ### The script -/

/-- Where a job is on its way from the call that holds it to the report of the engine's end. -/
inductive Job.Quitting (outcome : Outcome) (j : Job) : Prop
  | held {p : Pause} (hphase : j.phase = some (.waiting p)) (hrun : j.run.Quits .terminated outcome)
  | refused (hphase : j.phase = some (.returned (.error .terminated))) (hrun : j.run.Quits .terminated outcome)
  | resigned {heap : Heap} (hphase : j.phase = none)
      (hrun : j.run = .ask .ended heap fun _ => .done (.script outcome))

/-- A job that has reported the engine's end, and has nothing left to do. -/
structure Job.Resting (outcome : Outcome) (j : Job) : Prop where
  phase : ∃ reply, j.phase = some (.returned reply)
  run : ∃ heap, j.run = .ask .ended heap fun _ => .done (.script outcome)

theorem Job.Quitting.result? {outcome : Outcome} {j : Job} (h : j.Quitting outcome) : j.result? = none := by
  unfold Job.result?
  split
  · next result hdone =>
      cases h with
      | held hphase hrun | refused hphase hrun => exact absurd hdone (hrun.ne_done result)
      | resigned hphase hrun =>
          rw [hrun] at hdone
          cases hdone
  · rfl

theorem Job.Quitting.of_same {outcome : Outcome} {j j' : Job} (h : j.Quitting outcome)
    (hphase : j'.phase = j.phase) (hrun : j'.run = j.run) : j'.Quitting outcome := by
  cases h with
  | held hp hr => exact .held (hphase.trans hp) (hrun ▸ hr)
  | refused hp hr => exact .refused (hphase.trans hp) (hrun ▸ hr)
  | resigned hp hr => exact .resigned (hphase.trans hp) (hrun.trans hr)

theorem Job.Resting.of_same {outcome : Outcome} {j j' : Job} (h : j.Resting outcome)
    (hphase : j'.phase = j.phase) (hrun : j'.run = j.run) : j'.Resting outcome :=
  ⟨hphase ▸ h.phase, hrun ▸ h.run⟩

theorem Job.Resting.result? {outcome : Outcome} {j : Job} (h : j.Resting outcome) : j.result? = none := by
  obtain ⟨heap, hrun⟩ := h.run
  rw [Job.result?, hrun]

/-- **A step of the job**, once the engine knows of the end. -/
theorem Job.Quitting.advance {outcome : Outcome} {b b' : Bridge} {j j' : Job} (h : j.Quitting outcome)
    (hclosed : b.engine.closed = some .terminated)
    (hslot : ∀ mode, b.engine.slots.get? j.thread ≠ some (some mode))
    (hstep : j.advance? b = some (b', j')) :
    j'.Resting outcome ∧ b'.session = (b.session.notify .engineTerminated).2 ∨
      j'.Quitting outcome ∧ b'.session = b.session ∧ b'.engine.closed = some .terminated ∧
        ∀ mode, b'.engine.slots.get? j'.thread ≠ some (some mode) := by
  obtain ⟨point, heap, resume, hask, ⟨hnone, rfl, rfl⟩ | ⟨phase, phase', hsome, hadvance, rfl⟩ |
    ⟨reply, hreturned, rfl, rfl⟩⟩ := Job.advance?_cases hstep
  · -- A call begins, which reports the end of the engine.
    cases h with
    | held hphase | refused hphase => cases hphase.symm.trans hnone
    | resigned hphase hrun =>
        rw [hask] at hrun
        obtain ⟨rfl, -, -⟩ := Run.ask.inj hrun
        have hbegin : Job.begin b .ended =
            ((b.notify .engineTerminated).2, .returned (b.notify .engineTerminated).1) := by
          simp [Job.begin, Bridge.engineTerminated, hclosed]
        rw [hbegin]
        exact .inl ⟨⟨⟨_, rfl⟩, _, hask.trans hrun⟩, rfl⟩
  · -- A call goes on, which is the one that is woken up.
    cases h with
    | refused hphase =>
        cases hphase.symm.trans hsome
        cases hadvance
    | resigned hphase => cases hphase.symm.trans hsome
    | @held p hphase hrun =>
        cases hphase.symm.trans hsome
        have hwake : b.engine.wakening? j.thread = some (.closed .terminated) :=
          Engine.wakening_of_closed hclosed hslot
        simp only [Phase.advance?, hwake] at hadvance
        cases hadvance
        refine .inr ⟨.refused rfl hrun, rfl, hclosed, ?_⟩
        intro mode hmode
        have hdropped : (b.engine.dropSlot j.thread).slots.get? j.thread = some (some mode) := hmode
        rw [World.slots_dropSlot, if_pos rfl] at hdropped
        cases hdropped
  · -- A call has returned.
    cases h with
    | held hphase | resigned hphase => cases hphase.symm.trans hreturned
    | refused hphase hrun =>
        cases hphase.symm.trans hreturned
        rw [hask] at hrun
        obtain ⟨heap', hresume⟩ := hrun
        exact .inr ⟨.resigned rfl hresume, rfl, hclosed, hslot⟩

/-- **The last step.** -/
theorem Job.Resting.advance {outcome : Outcome} {b : Bridge} {j : Job} (h : j.Resting outcome) :
    ∃ j', j.advance? b = some (b, j') ∧ j'.result? = some (.script outcome) := by
  obtain ⟨⟨reply, hphase⟩, heap, hrun⟩ := h
  refine ⟨{ j with phase := none, run := .done (.script outcome) }, ?_, rfl⟩
  rw [Job.advance?, hrun, hphase]

/-! ### The session -/

/-- A task that hands over no decision, and after which nothing follows. -/
def Task.IsQuiet : Task → Prop
  | .forward c => c = .terminate
  | .followUp _ => False
  | .callback _ | .lastCallback _ | .release _ | .releaseAll | .command _ | .closeQueue | .closeGate
  | .forwardClosed | .announceClosed | .finish _ => True

theorem Task.IsQuiet.ne_forward {task : Task} (h : task.IsQuiet) {c : Command} (hc : c ≠ .terminate) :
    task ≠ .forward c := by
  intro htask
  subst htask
  exact hc h

namespace Session

/-- Nothing lets anyone go on. -/
structure IsQuiet (s : Session) : Prop where
  agenda : ∀ task ∈ s.worker.agenda, task.IsQuiet
  events : ∀ e ∈ s.queue.events, e = .notification .engineStarted ∨ e = .command .terminate

theorem quiet_closing (exit : Exit) : ∀ task ∈ closing exit, task.IsQuiet := by
  intro task htask
  simp only [closing, List.mem_cons, List.not_mem_nil, or_false] at htask
  rcases htask with rfl | rfl | rfl | rfl | rfl <;> trivial

/-- The start of the engine leaves no more than what listeners are told of it. -/
theorem quiet_tasksAfter_started (s : Session) :
    ∀ task ∈ s.tasksAfter (.notification .engineStarted), task.IsQuiet := by
  intro task htask
  simp only [tasksAfter, notificationTasks, reduceCtorEq, if_false, List.append_nil, List.mem_append] at htask
  rcases htask with hcallback | hfollow
  · obtain ⟨c, -, rfl⟩ := List.mem_map.mp hcallback
    trivial
  · rw [Target.followUps_of_ne _ _ (by intro id script root he; cases he)] at hfollow
    cases hfollow

theorem IsQuiet.take {s s' : Session} (h : s.IsQuiet) (hs : s.take? = some s') : s'.IsQuiet := by
  obtain ⟨-, ⟨e, rest, hevents, rfl⟩ | ⟨-, rfl⟩⟩ := take?_cases hs
  · have hmem (other : Event) (hother : other ∈ rest) : other ∈ s.queue.events := by
      rw [hevents]
      exact List.mem_cons_of_mem _ hother
    refine ⟨?_, ?_⟩
    · rw [agenda_handle, tasksAfter_withEvents]
      rcases h.events e (by rw [hevents]; exact List.mem_cons_self) with rfl | rfl
      · exact s.quiet_tasksAfter_started
      · rw [tasksAfter_terminate]
        split
        · exact nofun
        · simp [Task.IsQuiet]
    · rw [handle_eq]
      exact fun other hother => h.events other (hmem other hother)
  · exact ⟨quiet_closing _, h.events⟩

theorem IsQuiet.perform {s s' : Session} {task : Task} (h : s.IsQuiet)
    (hs : s.perform? = some (task, s')) : task.IsQuiet ∧ s'.IsQuiet := by
  obtain ⟨rest, hagenda, rfl⟩ := perform?_cases hs
  have hall := h.agenda
  rw [hagenda, List.forall_mem_cons] at hall
  refine ⟨hall.1, ?_, ?_⟩
  · rw [agenda_effect, agenda_withAgenda]
    exact hall.2
  · cases task with
    | followUp c => exact hall.1.elim
    | closeQueue => exact nofun
    | callback | lastCallback | forward | release | releaseAll | command | closeGate | forwardClosed
    | announceClosed | finish => exact h.events

/-- The request to end is on its way to the engine. -/
inductive Heading (s : Session) : Prop
  | queued (hstands : s.Stands) (hevents : .command .terminate ∈ s.queue.events)
  | taken (hforward : .forward .terminate ∈ s.worker.agenda)

/-- **The next event** is the request, or the start of the engine that came before it. -/
theorem Heading.take {s s' : Session} (h : s.Heading) (hquiet : s.IsQuiet) (hs : s.take? = some s') :
    s'.Heading := by
  cases h with
  | taken hforward =>
      obtain ⟨hidle, -⟩ := take?_eq_some.mp hs
      rw [hidle] at hforward
      cases hforward
  | queued hstands hevents =>
      obtain ⟨-, e, rest, hfirst, rfl⟩ := take?_open hstands.queue_open hstands.live.queue hs
      obtain ⟨_, _, hcons, hrest, hnext⟩ := hstands.take hs
      obtain ⟨rfl, rfl⟩ := List.cons.inj (hfirst.symm.trans hcons)
      rcases hquiet.events e (by rw [hfirst]; exact List.mem_cons_self) with rfl | rfl
      · rcases hnext with hsilent | ⟨hstands', -⟩
        · have hover : (s.targetAfter (.notification .engineStarted)).state = .terminated := by
            rw [← targetAfter_withEvents s rest, ← target_handle]
            exact hsilent.state
          exact absurd hover (Target.state_handleNotification hstands.live.target _ nofun)
        · rw [hfirst] at hevents
          exact .queued hstands' (hrest ▸ (List.mem_cons.mp hevents).resolve_left nofun)
      · refine .taken ?_
        rw [agenda_handle, tasksAfter_withEvents, tasksAfter_terminate,
          if_neg (by simp [isTerminated_eq_false hstands.live])]
        simp

/-- It arrives, or is still on its way. -/
theorem Heading.perform {s s' : Session} {task : Task} (h : s.Heading)
    (hs : s.perform? = some (task, s')) : task = .forward .terminate ∨ s'.Heading := by
  cases h with
  | queued hstands hevents =>
      obtain ⟨-, hstands', hkept⟩ := hstands.perform hs
      exact .inr (.queued hstands' (hkept hevents))
  | taken hforward =>
      obtain ⟨rest, hagenda, rfl⟩ := perform?_cases hs
      rw [hagenda, List.mem_cons] at hforward
      rcases hforward with hnow | hlater
      · exact .inl hnow.symm
      · refine .inr (.taken ?_)
        rw [agenda_effect, agenda_withAgenda]
        exact hlater

end Session

/-! ### The world -/

namespace World

/-- A dispatcher reports no outcome. -/
theorem outcome_reportOf (s : Session) (task : Task) :
    (reportOf s task).findSome? Report.outcome? = none := by
  cases task with
  | callback | lastCallback => rfl
  | command c =>
      unfold reportOf
      dsimp only
      split <;> rfl
  | release | releaseAll | followUp | forward | closeQueue | closeGate | forwardClosed | announceClosed
  | finish => rfl

theorem outcome_dispatch {w w' : World} {reports : List Report} (hc : w.Calm)
    (hd : w.dispatchStep? = some (w', reports)) : reports.findSome? Report.outcome? = none := by
  obtain ⟨task, session, -, -, rfl⟩ | ⟨session, -, -, -, rfl⟩ := dispatchStep?_calm hc hd
  · exact outcome_reportOf session task
  · rfl

/-- The only job after a step of the dispatcher is in the same place. -/
theorem exists_job_of_dispatch {w w' : World} {reports : List Report} {j : Job} (hjobs : w.jobs = [j])
    (hd : w.dispatchStep? = some (w', reports)) :
    ∃ j', w'.jobs = [j'] ∧ j'.thread = j.thread ∧ j'.phase = j.phase ∧ j'.run = j.run ∧ j'.heap = j.heap := by
  obtain ⟨f, hmap, hf⟩ := (retains_dispatchStep? hd).jobs
  refine ⟨f j, by rw [hmap, hjobs, List.map_singleton], ?_⟩
  rcases hf j with hj | hj <;> rw [hj] <;> exact ⟨rfl, rfl, rfl, rfl⟩

/-- **A step of the dispatcher** that lets nobody go on. -/
theorem dispatchStep?_quiet {w w' : World} {reports : List Report} (hc : w.Calm)
    (hquiet : w.session.IsQuiet) (h : w.dispatchStep? = some (w', reports)) :
    w'.session.IsQuiet ∧ w'.Calm ∧
      ((∃ task session, w.session.perform? = some (task, session) ∧ task.IsQuiet ∧
          w'.bridge = { session, engine := effectOnEngine w.engine task }) ∨
        ∃ session, w.session.take? = some session ∧ w'.bridge = { w.bridge with session }) := by
  obtain ⟨hcalm, -, ⟨task, session, hs, hb⟩ | ⟨session, -, hs, hb⟩⟩ := dispatchStep?_cases hc h
  · obtain ⟨htask, hsession⟩ := hquiet.perform hs
    refine ⟨?_, hcalm, .inl ⟨task, session, hs, htask, hb⟩⟩
    rw [World.session, hb]
    exact hsession
  · refine ⟨?_, hcalm, .inr ⟨session, hs, hb⟩⟩
    rw [World.session, hb]
    exact hquiet.take hs

/-- A step of the dispatcher brings a session that comes to its end no further from it. -/
theorem parting_of_dispatch {w w' : World} {reports : List Report} (hc : w.Calm)
    (h : w.session.Parting) (hd : w.dispatchStep? = some (w', reports)) : w'.session.Parting := by
  obtain ⟨-, -, ⟨task, session, hs, hb⟩ | ⟨session, -, hs, hb⟩⟩ := dispatchStep?_cases hc hd
  · rw [World.session, hb]
    exact h.perform hs
  · rw [World.session, hb]
    exact h.take hs

/-- Where the dispatcher rests, the session has come to its end. -/
theorem silent_of_idle {w : World} (hc : w.Calm) (h : w.session.Parting) (hidle : w.dispatchStep? = none) :
    w.session.IsSilent := by
  have hperform : w.session.perform? = none := by
    cases hperform : w.session.perform? with
    | none => rfl
    | some next =>
        obtain ⟨w₁, reports₁, hd⟩ := exists_dispatchStep hc hperform
        cases hidle.symm.trans hd
  refine h.silent hperform ?_
  cases htake : w.session.take? with
  | none => rfl
  | some session =>
      obtain ⟨w₁, reports₁, hd⟩ := exists_dispatchStep_take hc hperform htake
      cases hidle.symm.trans hd

/-- **The step of the only job.** -/
theorem jobStep?_single {w : World} {j : Job} (hjobs : w.jobs = [j]) :
    w.jobStep? = (j.advance? w.bridge).map fun (b, j') => (w.advanced b [] j' [],
      match j'.result? with
      | some result => [.finished j' result]
      | none => []) := by
  have honly : stepJobs? w.bridge [] w.jobs =
      (j.advance? w.bridge).map fun (b, j') => (b, [], j', []) := by
    rw [hjobs, stepJobs?]
    cases j.advance? w.bridge <;> rfl
  rw [jobStep?, honly, Option.map_map]
  refine congrArg (Option.map · (j.advance? w.bridge)) (funext fun next => ?_)
  obtain ⟨b, j'⟩ := next
  unfold advanced
  dsimp only [Function.comp_apply]
  cases j'.result? <;> rfl

/-- **The invariant** of a world in which the only script was asked to end while it was held, or has come to its
end, and the outcome that was seen of it so far. -/
inductive Quitting (outcome : Outcome) (w : World) : Option Outcome → Prop
  /-- The engine does not know yet. -/
  | asked {j : Job} {p : Pause} (hcalm : w.Calm) (hquiet : w.session.IsQuiet) (hunbroken : w.session.Unbroken)
      (hjobs : w.jobs = [j]) (hphase : j.phase = some (.waiting p)) (hrun : j.run.Quits .terminated outcome)
      (hslot : ∀ mode, w.engine.slots.get? j.thread ≠ some (some mode)) (hopen : w.engine.closed = none)
      (hheading : w.session.Heading) : Quitting outcome w none
  | told {j : Job} (hcalm : w.Calm) (hquiet : w.session.IsQuiet) (hunbroken : w.session.Unbroken)
      (hjobs : w.jobs = [j]) (hjob : j.Quitting outcome)
      (hslot : ∀ mode, w.engine.slots.get? j.thread ≠ some (some mode))
      (hclosed : w.engine.closed = some .terminated) : Quitting outcome w none
  /-- The end of the engine is reported. -/
  | reported {j : Job} (hcalm : w.Calm) (hparting : w.session.Parting) (hjobs : w.jobs = [j])
      (hjob : j.Resting outcome) : Quitting outcome w none
  /-- The script is over. -/
  | returned (hcalm : w.Calm) (hparting : w.session.Parting) (hjobs : w.jobs = []) :
      Quitting outcome w (some outcome)

section

variable {outcome : Outcome} {seen : Option Outcome} {reports : List Report} {w w' : World}

theorem Quitting.calm (h : Quitting outcome w seen) : w.Calm := by
  cases h with
  | asked hcalm | told hcalm | reported hcalm | returned hcalm => exact hcalm

/-- What a step of the dispatcher does to the engine. -/
theorem engine_of_quiet {task : Task} (htask : task.IsQuiet) (e : Engine) {thread : ThreadId}
    (hslot : ∀ mode, e.slots.get? thread ≠ some (some mode)) :
    (∀ mode, (effectOnEngine e task).slots.get? thread ≠ some (some mode)) ∧
      ((effectOnEngine e task).closed = e.closed ∨
        e.closed = none ∧ (effectOnEngine e task).closed = some .terminated) := by
  refine ⟨?_, e.closed_effect (htask.ne_forward (by decide))⟩
  rw [e.slots_effect fun mode => htask.ne_forward nofun]
  exact hslot

/-- **A step of the dispatcher.** -/
theorem quitting_dispatch (h : Quitting outcome w seen) (hd : w.dispatchStep? = some (w', reports)) :
    Quitting outcome w' seen := by
  cases h with
  | @asked j p hcalm hquiet hunbroken hjobs hphase hrun hslot hopen hheading =>
      obtain ⟨hquiet', hcalm', hb⟩ := dispatchStep?_quiet hcalm hquiet hd
      obtain ⟨j', hjobs', hthread, hphase', hrun', -⟩ := exists_job_of_dispatch hjobs hd
      rw [← hphase'] at hphase
      rw [← hrun'] at hrun
      rw [← hthread] at hslot
      rcases hb with ⟨task, session, hs, htask, hb⟩ | ⟨session, hs, hb⟩
      · have hengine : w'.engine = effectOnEngine w.engine task := congrArg Bridge.engine hb
        have hsession : w'.session = session := congrArg Bridge.session hb
        obtain ⟨hslot', hclosed⟩ := engine_of_quiet htask w.engine hslot
        rw [← hengine] at hslot' hclosed
        have hunbroken' : w'.session.Unbroken := hsession ▸ hunbroken.perform hs
        rcases hclosed with hsame | ⟨-, hclosed⟩
        · refine .asked hcalm' hquiet' hunbroken' hjobs' hphase hrun hslot' (hsame.trans hopen) ?_
          rw [hsession]
          refine (hheading.perform hs).resolve_left ?_
          intro hnow
          -- The engine would have been closed.
          subst hnow
          rw [hengine, hopen] at hsame
          simp [effectOnEngine, marker, Engine.apply, Engine.close, hopen] at hsame
        · exact .told hcalm' hquiet' hunbroken' hjobs' (.held hphase hrun) hslot' hclosed
      · have hengine : w'.engine = w.engine := (congrArg Bridge.engine hb :)
        have hsession : w'.session = session := congrArg Bridge.session hb
        rw [← hengine] at hslot hopen
        refine .asked hcalm' hquiet' (hsession ▸ hunbroken.take hs) hjobs' hphase hrun hslot hopen ?_
        rw [hsession]
        exact hheading.take hquiet hs
  | @told j hcalm hquiet hunbroken hjobs hjob hslot hclosed =>
      obtain ⟨hquiet', hcalm', hb⟩ := dispatchStep?_quiet hcalm hquiet hd
      obtain ⟨j', hjobs', hthread, hphase', hrun', -⟩ := exists_job_of_dispatch hjobs hd
      have hjob' := hjob.of_same hphase' hrun'
      rw [← hthread] at hslot
      rcases hb with ⟨task, session, hs, htask, hb⟩ | ⟨session, hs, hb⟩
      · have hengine : w'.engine = effectOnEngine w.engine task := congrArg Bridge.engine hb
        have hsession : w'.session = session := congrArg Bridge.session hb
        obtain ⟨hslot', hcase⟩ := engine_of_quiet htask w.engine hslot
        rw [← hengine] at hslot' hcase
        rw [hclosed] at hcase
        have hclosed' := hcase.resolve_right (by simp)
        exact .told hcalm' hquiet' (hsession ▸ hunbroken.perform hs) hjobs' hjob' hslot' hclosed'
      · have hengine : w'.engine = w.engine := (congrArg Bridge.engine hb :)
        have hsession : w'.session = session := congrArg Bridge.session hb
        rw [← hengine] at hslot hclosed
        exact .told hcalm' hquiet' (hsession ▸ hunbroken.take hs) hjobs' hjob' hslot hclosed
  | reported hcalm hparting hjobs hjob =>
      obtain ⟨hcalm', -⟩ := dispatchStep?_cases hcalm hd
      obtain ⟨j', hjobs', -, hphase, hrun, -⟩ := exists_job_of_dispatch hjobs hd
      exact .reported hcalm' (parting_of_dispatch hcalm hparting hd) hjobs' (hjob.of_same hphase hrun)
  | returned hcalm hparting hjobs =>
      obtain ⟨hcalm', ⟨f, hmap, -⟩, -⟩ := dispatchStep?_cases hcalm hd
      exact .returned hcalm' (parting_of_dispatch hcalm hparting hd) (by rw [hmap, hjobs, List.map_nil])

/-- **Nobody rests before the script is over**, and the session with it. -/
theorem over_of_rest (h : Quitting outcome w seen) (hidle : w.dispatchStep? = none)
    (hrest : w.jobStep? = none) : seen = some outcome ∧ w.session.IsSilent := by
  cases h with
  | returned hcalm hparting hjobs => exact ⟨rfl, silent_of_idle hcalm hparting hidle⟩
  | @reported j hcalm hparting hjobs hjob =>
      obtain ⟨j', hstep, -⟩ := hjob.advance (b := w.bridge)
      rw [jobStep?_single hjobs, hstep] at hrest
      cases hrest
  | @told j hcalm hquiet hunbroken hjobs hjob hslot hclosed =>
      rw [jobStep?_single hjobs] at hrest
      have hsome := Job.isSome_advance (b := w.bridge) hclosed hjob.result?
      rw [Option.map_eq_none_iff.mp hrest] at hsome
      cases hsome
  | @asked j p hcalm hquiet hunbroken hjobs hphase hrun hslot hopen hheading =>
      -- The dispatcher has the request on its agenda, or takes what is in front of it.
      have hmoves : ∃ w₁ reports₁, w.dispatchStep? = some (w₁, reports₁) := by
        cases hagenda : w.session.worker.agenda with
        | cons task rest =>
            have hperform : ∃ session, w.session.perform? = some (task, session) :=
              ⟨_, by rw [Session.perform?, hagenda]⟩
            obtain ⟨session, hperform⟩ := hperform
            exact exists_dispatchStep hcalm hperform
        | nil =>
            cases hheading with
            | taken hforward =>
                rw [hagenda] at hforward
                cases hforward
            | queued hstands hevents =>
                obtain ⟨e, rest, hcons⟩ := List.exists_cons_of_ne_nil (List.ne_nil_of_mem hevents)
                have hperform : w.session.perform? = none := by rw [Session.perform?, hagenda]
                exact exists_dispatchStep_take hcalm hperform (Session.take?_eq_some.mpr
                  ⟨hagenda, hstands.awake, .inl ⟨_, _, hstands.live.queue, hcons, rfl⟩⟩)
      obtain ⟨w₁, reports₁, hd⟩ := hmoves
      cases hidle.symm.trans hd

end

end World

end Pausepoint
