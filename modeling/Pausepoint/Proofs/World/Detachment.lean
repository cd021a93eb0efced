import Pausepoint.Proofs.World.Finality
import Pausepoint.Proofs.World.Transparency
import Pausepoint.Proofs.World.Unheld

/-!
# Pausepoint.Proofs.World.Detachment

Detaching does not disturb the script.

`detachment_is_transparent` is the main result: one interpreter runs a script in a fresh session, while
the control side may ask to detach at any moment, and the dispatcher may come to it at any moment. If the
run returns, then it returns what it returns without a debugger; once the engine is detached no call is
held; and the run makes a bounded number of steps in all, so that it does return. What it takes is that the
engine has started before the queue is closed: otherwise it is refused to start (`desertion_is_refused`); and,
with a bound on pauses, that decisions and reports are apart (`World.Apart`), as for a run from which nobody
detaches.

Proof shape: `World.Parting` has a case for how far the request has come. While it waits, and while the
dispatcher has it, the run is as in a session that nobody ends (`Smooth`, of the session that stands in for
this one); once the engine has it, the run is `Unheld`.
-/

namespace Pausepoint

open Pausepoint.Language

/-! ### The end of the company -/

/-- What the dispatcher does before it hands a request to detach over. -/
def Task.IsHerald : Task → Prop
  | .releaseAll | .callback _ | .command _ => True
  | .release _ | .followUp _ | .forward _ | .lastCallback _ | .closeQueue | .closeGate | .forwardClosed
  | .announceClosed | .finish _ => False

theorem tasksAfter_disconnect {s : Session} (hlive : s.target.state ≠ .terminated) :
    ∃ before, s.tasksAfter (.command .disconnect) =
      before ++ .forward .disconnect :: closing .disconnected ∧ ∀ task ∈ before, task.IsHerald := by
  have hterm : ¬ s.target.isTerminated = true := by simpa [Target.isTerminated] using hlive
  have heffects : (s.target.handleCommand .disconnect).1 =
      { callbacks := (s.target.terminate none).1, deliver := true } := by
    rw [Target.handleCommand, if_neg hterm]
  refine ⟨.releaseAll :: (s.target.terminate none).1.map .callback ++ [.command .disconnect], ?_, ?_⟩
  · rw [Session.tasksAfter, heffects]
    simp [commandTasks, releaseTasks]
  · intro task htask
    simp only [List.cons_append, List.mem_cons, List.mem_append, List.mem_map, List.not_mem_nil,
      or_false] at htask
    obtain rfl | ⟨c, -, rfl⟩ | rfl := htask <;> trivial

namespace World

/-- **How far the parting has come**, where a run is as its checkpoints say. -/
inductive Parting (untimed : Prop) (thread : ThreadId) (w : World) (points : List Checkpoint)
    (phase : Option Phase) : Prop
  /-- A request to detach waits at most. -/
  | staying (hwakeful : untimed → w.Wakeful) (hlive : w.session.IsLive)
      (h : Smooth thread ⟨w.session.staying, w.engine⟩ points phase)
  /-- The dispatcher has taken it, and the engine has not got it. -/
  | leaving {before : List Task}
      (hagenda : w.session.worker.agenda = before ++ .forward .disconnect :: closing .disconnected)
      (hbefore : ∀ task ∈ before, task.IsHerald) (hqueue : w.session.queue.closed = false)
      (h : Smooth thread ⟨w.session.gate.alone, w.engine⟩ points phase)
  /-- The engine has got it. -/
  | left (hclosed : w.engine.closed = some .detached) (h : Unheld w.session points phase)

section

variable {untimed : Prop} {thread : ThreadId} {w w' : World} {points : List Checkpoint}
  {phase : Option Phase}

/-- The dispatcher does a task while `disconnect` waits at most. -/
theorem Parting.perform_staying (hwakeful : untimed → w'.Wakeful) (hlive : w.session.IsLive)
    (h : Smooth thread ⟨w.session.staying, w.engine⟩ points phase)
    (hclash : Reports phase → ¬ w.session.Handing thread) {task : Task}
    (hperform : w.session.perform? = some (task, w'.session))
    (hengine : w'.engine = effectOnEngine w.engine task) : Parting untimed thread w' points phase := by
  obtain ⟨rest, hagenda, hsession⟩ := Session.perform?_cases hperform
  have hmild : task.IsMild := h.peaceful.agenda task <| by
    show task ∈ w.session.worker.agenda
    rw [hagenda]
    exact List.mem_cons_self
  have hstaying : w.session.staying.perform? = some (task, w'.session.staying) := by
    refine Session.perform_staying hperform ?_ ?_
    · rintro rfl
      exact hmild
    · rintro rfl
      exact hmild
  refine .staying hwakeful ?_ ?_
  · rw [hsession, Session.isLive_effect]
    exact ⟨hlive.target, hlive.queue⟩
  · rw [hengine]
    exact h.perform hclash hstaying

/-- The dispatcher takes an event while `disconnect` waits at most. -/
theorem Parting.take_staying (hwakeful : ¬ Ends w.session → untimed → w'.Wakeful)
    (hlive : w.session.IsLive) (h : Smooth thread ⟨w.session.staying, w.engine⟩ points phase)
    (htake : w.session.take? = some w'.session) (hengine : w'.engine = w.engine) :
    Parting untimed thread w' points phase := by
  have hpeaceful := h.peaceful
  obtain ⟨hidle, e, rest, hevents, hsession⟩ :=
    Session.take?_open (s := w.session) hpeaceful.queue_open hpeaceful.uncancelled htake
  have hawake := (Session.take?_eq_some.mp htake).2.1
  -- The request to detach begins the farewell; any other event would be taken without it, too.
  by_cases he : e = .command .disconnect
  · subst he
    obtain ⟨before, htasks, hbefore⟩ := tasksAfter_disconnect hlive.target
    refine .leaving ?_ hbefore ?_ ?_
    · rw [hsession, Session.agenda_handle, Session.tasksAfter_withEvents, htasks]
    · rw [hsession, Session.queue_handle]
      exact hpeaceful.queue_open
    · have hgate : w'.session.gate = w.session.gate := by
        rw [hsession, Session.handle_eq]
        rfl
      rw [hgate, hengine]
      exact h.alone
  · have hstaying := Session.take_staying hidle hawake hpeaceful.uncancelled hevents he
    rw [← hsession] at hstaying
    have hmem : e ∈ w.session.staying.queue.events := by
      show e ∈ w.session.queue.events.filter _
      rw [hevents]
      simp [he]
    have hmild : e.IsMild := hpeaceful.events e hmem
    refine .staying (hwakeful ?_) ⟨?_, ?_⟩ ?_
    · rintro ⟨-, hhead⟩
      rw [hevents, List.head?_cons] at hhead
      rcases hhead with hhead | hhead <;> cases hhead
      · exact hmild
      · exact he rfl
    · rw [hsession, Session.target_handle, Session.targetAfter_withEvents]
      cases e with
      | notification n => exact Target.state_handleNotification hlive.target _ hmild
      | command c => exact Target.state_handleCommand hlive.target fun hc => he (hc ▸ rfl)
    · rw [hsession, Session.queue_handle]
      exact hlive.queue
    · rw [hengine]
      exact h.take hstaying

/-- The dispatcher does a task once it has taken `disconnect`. -/
theorem Parting.perform_leaving {before : List Task}
    (hagenda : w.session.worker.agenda = before ++ .forward .disconnect :: closing .disconnected)
    (hbefore : ∀ task ∈ before, task.IsHerald) (hqueue : w.session.queue.closed = false)
    (h : Smooth thread ⟨w.session.gate.alone, w.engine⟩ points phase) {task : Task}
    (hperform : w.session.perform? = some (task, w'.session))
    (hengine : w'.engine = effectOnEngine w.engine task) : Parting untimed thread w' points phase := by
  obtain ⟨rest, htasks, hsession⟩ := Session.perform?_cases hperform
  rw [hagenda] at htasks
  cases before with
  | nil =>
      obtain ⟨rfl, rfl⟩ := List.cons.inj htasks
      refine .left (by rw [hengine]; rfl) ?_
      rw [hsession]
      exact Smooth.unheld (s := w.session.withAgenda (closing .disconnected)) h rfl hqueue
  | cons first before =>
      obtain ⟨rfl, rfl⟩ := List.cons.inj htasks
      have hfirst : first.IsHerald := hbefore first List.mem_cons_self
      have hrest : w'.session.worker.agenda = before ++ .forward .disconnect :: closing .disconnected := by
        rw [hsession, Session.agenda_effect]
        rfl
      refine .leaving hrest (fun task htask => hbefore task (List.mem_cons_of_mem first htask)) ?_ ?_
      · rw [hsession]
        cases first with
        | releaseAll | callback | command => exact hqueue
        | release | followUp | forward | lastCallback | closeQueue | closeGate | forwardClosed
        | announceClosed | finish => exact hfirst.elim
      · rw [hsession, hengine]
        cases first with
        | releaseAll => exact h.releaseAll
        | callback | command => exact h
        | release | followUp | forward | lastCallback | closeQueue | closeGate | forwardClosed
        | announceClosed | finish => exact hfirst.elim

/-- The dispatcher closes once the engine is detached. -/
theorem Parting.perform_left (hclosed : w.engine.closed = some .detached)
    (hleaving : w.session.Leaving) (h : Unheld w.session points phase) {task : Task}
    (hstarted : task = .closeQueue → phase.isSome = true ∨ points.head? ≠ some .started)
    (hperform : w.session.perform? = some (task, w'.session))
    (hengine : w'.engine = effectOnEngine w.engine task) : Parting untimed thread w' points phase := by
  obtain ⟨⟨-, hforward⟩, -⟩ := hleaving.task hperform
  refine .left ?_ ?_
  · rw [hengine]
    refine ((w.engine.closed_effect (hforward .disconnect)).resolve_right ?_).trans hclosed
    rw [hclosed]
    exact fun hnone => nomatch hnone.1
  · cases h with
    | unstarted hagenda =>
        obtain ⟨rest, htasks, -⟩ := Session.perform?_cases hperform
        obtain ⟨rfl, -⟩ := List.cons.inj (hagenda.symm.trans htasks)
        rcases hstarted rfl with hphase | hhead
        · cases hphase
        · exact absurd rfl hhead
    | between hpoints => exact .between hpoints
    | within hcall hpoints => exact .within hcall hpoints

end

/-! ### Steps of the job -/

theorem indistinct_staying : Indistinct fun s q => q = s.staying ∧ s.IsLive where
  notify := by
    rintro s q ⟨rfl, hlive⟩ n
    rw [s.notify_staying n]
    exact ⟨rfl, rfl, Session.isLive_notify.mpr hlive⟩
  abandonPause := fun ⟨hq, hlive⟩ thread => ⟨by rw [hq]; rfl, hlive.target, hlive.queue⟩

/-- **A step of the job**, wherever the parting is. -/
theorem Parting.job {untimed : Prop} {w : World} {b : Bridge} {j j' : Job} (hjobs : w.jobs = [j])
    (hsteady : j.run.Steady) (h : Parting untimed j.thread w j.run.checkpoints j.phase)
    (hclash : (untimed → w.Wakeful) → Reports j.phase → ¬ w.session.Handing j.thread)
    (hstep : j.advance? w.bridge = some (b, j')) :
    j'.run.Steady ∧ j'.run.undisturbed = j.run.undisturbed ∧
      (Parting untimed j.thread (w.advanced b [] j' []) j'.run.checkpoints j'.phase ∨ j'.Ending) := by
  have hjobs' : w.jobs = [] ++ j :: [] := hjobs
  obtain ⟨hworker, hclosed'⟩ := (callStep_of_job hstep).1.frame
  have hsession : (w.advanced b [] j' []).session = b.session :=
    congrArg Bridge.session (bridge_advanced ..)
  have hengine : (w.advanced b [] j' []).engine = b.engine := congrArg Bridge.engine (bridge_advanced ..)
  -- Staying, the request to detach that waits makes no difference; leaving, only the gate counts; detached,
  -- every call passes.
  cases h with
  | staying hwakeful hlive h =>
      obtain ⟨q, hq, rfl, hlive'⟩ := indistinct_staying.job ⟨rfl, hlive⟩ hstep
      obtain ⟨hsteady', hsame, hnext⟩ := h.job hsteady (hclash hwakeful) hq
      refine ⟨hsteady', hsame, hnext.imp_left fun h => .staying (fun hu => ?_) ?_ ?_⟩
      · exact wakeful_moves (hwakeful hu) (.step hjobs' hstep)
      · rwa [hsession]
      · rwa [hsession, hengine]
  | leaving hagenda hbefore hqueue h =>
      obtain ⟨q, hq, hgate, hqueue', -⟩ := indistinct_gate.job
        (s := w.session) (q := w.session.gate.alone) ⟨rfl, hqueue, rfl⟩ hstep
      have hidle : ¬ w.session.gate.alone.Handing j.thread :=
        Session.handing_of_forwards (Session.forwards_of_idle rfl) j.thread
      obtain ⟨hsteady', hsame, hnext⟩ := h.job hsteady (fun _ => hidle) hq
      refine ⟨hsteady', hsame, hnext.imp_left fun h => .leaving ?_ hbefore ?_ ?_⟩
      · rw [hsession, hworker]
        exact hagenda
      · rwa [hsession]
      · have halone := h.alone
        dsimp only at halone
        rw [hgate] at halone
        rwa [hsession, hengine]
  | left hclosed h =>
      obtain ⟨hsteady', hsame, hnext⟩ := h.job hsteady hclosed hstep
      refine ⟨hsteady', hsame, .inl (.left ?_ ?_)⟩
      · rw [hengine, hclosed']
        exact hclosed
      · rwa [hsession]

/-- The job gives up, which it does only where something may still hold it. -/
theorem Parting.giveUp {untimed : Prop} {w : World} {b : Bridge} {j j' : Job} (hjobs : w.jobs = [j])
    (h : Parting untimed j.thread w j.run.checkpoints j.phase)
    (hgive : j.giveUp? w.bridge = some (b, j')) :
    Parting untimed j.thread (w.advanced b [] j' []) j'.run.checkpoints j'.phase := by
  have hjobs' : w.jobs = [] ++ j :: [] := hjobs
  obtain ⟨p, milliseconds, hphase, -, -, hb, hj'⟩ := giveUp?_cases hgive
  have hsession : (w.advanced b [] j' []).session = w.session := by
    rw [session, bridge_advanced, hb]
    rfl
  have hengine : (w.advanced b [] j' []).engine = (w.engine.dropSlot j.thread).dropStep j.thread := by
    rw [engine, bridge_advanced, hb]
    rfl
  have hpoints : j'.run.checkpoints = j.run.checkpoints := by rw [hj']; rfl
  have hphase' : j'.phase = some (.abandoning milliseconds) := by rw [hj']; rfl
  rw [hpoints, hphase']
  rw [hphase] at h
  cases h with
  | staying hwakeful hlive h =>
      refine .staying (fun hu => ?_) ?_ ?_
      · exact wakeful_moves (hwakeful hu) (.giveUp hjobs' hgive)
      · rwa [hsession]
      · rw [hsession, hengine]
        exact h.giveUp milliseconds
  | leaving hagenda hbefore hqueue h =>
      refine .leaving ?_ hbefore ?_ ?_
      · rwa [hsession]
      · rwa [hsession]
      · rw [hsession, hengine]
        exact h.giveUp milliseconds
  | left hclosed h =>
      cases hgive.symm.trans (Job.giveUp?_of_closed hclosed j)

/-- The control side makes a call, which may be a request to detach. -/
theorem Parting.call {untimed : Prop} {thread : ThreadId} {w : World} {points : List Checkpoint}
    {phase : Option Phase} (h : Parting untimed thread w points phase) {c : ControlCall}
    (hc : c.IsMild ∨ c = .disconnect) :
    Parting untimed thread (w.withSession (c.run w.session)) points phase := by
  -- Whatever the call is, all that it leaves in the queue are commands.
  obtain ⟨cs, hmild, hcs⟩ : ∃ cs : List Command, (∀ c' ∈ cs.filter (· ≠ .disconnect), c'.IsMild) ∧
      w.session.Commanded (c.run w.session) cs := by
    rcases hc with hc | rfl
    · obtain ⟨cs, hmild, hcs⟩ := ControlCall.mild_commanded w.session hc
      exact ⟨cs, fun c' hc' => hmild c' (List.mem_of_mem_filter hc'), hcs⟩
    · obtain ⟨cs, hsub, hcs⟩ := w.session.commanded_disconnect
      refine ⟨cs, fun c' hc' => ?_, hcs⟩
      obtain ⟨hmem, hne⟩ := List.mem_filter.mp hc'
      rw [List.mem_singleton.mp (hsub hmem)] at hne
      cases hne
  have hcancel : c ≠ .cancel := by
    rintro rfl
    exact hc.elim id nofun
  cases h with
  | staying hwakeful hlive h =>
      exact .staying (fun hu => wakeful_moves (hwakeful hu) (.call w c hcancel)) (hcs.isLive.mpr hlive)
        (h.commanded hcs.staying hmild)
  | leaving hagenda hbefore hqueue h =>
      refine .leaving ?_ hbefore ?_ ?_
      · show (c.run w.session).worker.agenda = _
        rw [hcs.worker]
        exact hagenda
      · show (c.run w.session).queue.closed = _
        rw [hcs.queue]
        exact hqueue
      · show Smooth thread ⟨(c.run w.session).gate.alone, _⟩ _ _
        rw [hcs.gate]
        exact h
  | left hclosed h =>
      refine .left hclosed ?_
      show Unheld (c.run w.session) _ _
      cases h with
      | unstarted hagenda hqueue hgate hphase hpoints =>
          refine .unstarted ?_ ?_ ?_ ?_ hpoints
          · rwa [hcs.worker]
          · rw [hcs.queue]
            exact hqueue
          · rwa [hcs.gate]
          · rwa [hcs.gate]
      | between hpoints => exact .between hpoints
      | within hcall hpoints => exact .within hcall hpoints

/-! ### Who moves when -/

end World

/-- The job is past the start of the engine, or has reported it. -/
def Job.HasStarted (j : Job) : Prop :=
  j.phase.isSome = true ∨ j.run.checkpoints.head? ≠ some .started

instance (j : Job) : Decidable j.HasStarted :=
  inferInstanceAs (Decidable (_ ∨ _))

namespace World

/-- A job made a step. -/
def Act.isJobStep : Option Act → Bool
  | some (.step ..) => true
  | _ => false

/-- **Who may move**: everyone, by a move that ends nothing, or by a request to detach; and a run has
reported the start of the engine before the dispatcher closes the queue. -/
structure DetachingStep (w : World) (act : Option Act) (w' : World) : Prop where
  any : AnyStep w act w'
  mild : ∃ a, act = some a ∧ (a.IsMild ∨ a = .call .disconnect)
  started : act = some (.dispatch (some .closeQueue)) → ∀ j ∈ w.jobs, j.HasStarted

/-- **The invariant**: the only job is the run of a thread, which goes on as if it were alone and has not
made too many steps, or it is over. -/
structure Accompanied (settings : DebuggerSettings) (thread : ThreadId) (result : JobResult)
    (bound steps : Nat) (w : World) : Prop where
  calm : w.Calm
  settled : w.Settled
  job : w.jobs = [] ∧ steps ≤ bound ∨ ∃ j, w.jobs = [j] ∧ j.thread = thread ∧ j.run.Steady ∧
    j.run.undisturbed = result ∧ j.result? = none ∧ steps + j.stepsLeft ≤ bound ∧
    (Parting (settings.resumeTimeout = none) thread w j.run.checkpoints j.phase ∨ j.Ending)

section

variable {settings : DebuggerSettings} {thread : ThreadId} {result : JobResult} {bound steps : Nat}
  {w w' : World}

/-- Every reply that a job got lets its script go on. -/
theorem answered_of_parting {untimed : Prop} {j : Job}
    (h : Parting untimed thread w j.run.checkpoints j.phase ∨ j.Ending) : j.Answered := by
  intro point points reply hpoints hphase
  rw [hpoints, hphase] at h
  rcases h with h | ⟨hend, -⟩
  · cases h with
    | staying _ _ h => exact h.leave.1
    | leaving _ _ _ h => exact h.leave.1
    | left _ h =>
        cases h with
        | within hcall => exact hcall
  · rw [hend] at hpoints
    obtain ⟨rfl, -⟩ := List.cons.inj hpoints
    trivial

/-- A step of the dispatcher. -/
theorem accompanied_dispatch (h : Accompanied settings thread result bound steps w) {reports : List Report}
    (hd : w.dispatchStep? = some (w', reports)) (hsettled : w'.Settled)
    (hapart : settings.resumeTimeout = none ∨ w.Apart)
    (hstarted : w.session.worker.agenda.head? = some .closeQueue → ∀ j ∈ w.jobs, j.HasStarted) :
    Accompanied settings thread result bound steps w' := by
  obtain ⟨hcalm, ⟨f, hjobs, hf⟩, hb⟩ := dispatchStep?_cases h.calm hd
  refine ⟨hcalm, hsettled, ?_⟩
  rcases h.job with ⟨hnone, hbound⟩ | ⟨j, hj, rfl, hsteady, hresult, hover, hbound, hcase⟩
  · refine .inl ⟨?_, hbound⟩
    rw [hjobs, hnone]
    rfl
  · obtain ⟨hthread, hphase, hrun⟩ := hf j
    have hmem : j ∈ w.jobs := by rw [hj]; exact List.mem_cons_self
    have hjobs' : w'.jobs = [f j] := by rw [hjobs, hj, List.map_singleton]
    refine .inr ⟨f j, hjobs', hthread, by rwa [hrun], by rwa [hrun], ?_, ?_, ?_⟩
    · rwa [Job.result?, hrun]
    · rwa [Job.stepsLeft, hrun, hphase]
    · rw [Job.Ending, hrun, hphase]
      refine hcase.imp_left fun hparting => ?_
      -- Without a bound on pauses no decision is handed over to a call that is about to report; with one that
      -- is assumed.
      have hown (hwakeful : settings.resumeTimeout = none → w.Wakeful) :
          Reports j.phase → ¬ w.session.Handing j.thread :=
        hapart.elim (fun hu => apart_of_wakeful (hwakeful hu)) id j hmem
      -- Before the script is left alone, while it is, and after: each task or event keeps to its part or leads
      -- to the next.
      rcases hb with ⟨task, session, hperform, hb⟩ | ⟨session, hidle, htake, hb⟩
      · obtain rfl : session = w'.session := by rw [World.session, hb]
        have hengine : w'.engine = effectOnEngine w.engine task := by rw [World.engine, hb]
        obtain ⟨rest, hagenda, -⟩ := Session.perform?_cases hperform
        cases hparting with
        | staying hwakeful hlive hsmooth =>
            refine .perform_staying (fun hu => ?_) hlive hsmooth (hown hwakeful) hperform hengine
            refine wakeful_moves (hwakeful hu) (.dispatch hd fun hends => ?_)
            rw [hends.1] at hagenda
            cases hagenda
        | leaving hheralds hbefore hqueue hsmooth =>
            exact .perform_leaving hheralds hbefore hqueue hsmooth hperform hengine
        | left hclosed hunheld =>
            refine .perform_left hclosed (h.settled.leaving hclosed) hunheld (fun htask => ?_) hperform hengine
            exact hstarted (by rw [hagenda, htask]; rfl) j hmem
      · obtain rfl : session = w'.session := by rw [World.session, hb]
        have hengine : w'.engine = w.engine := by rw [World.engine, hb]; rfl
        cases hparting with
        | staying hwakeful hlive hsmooth =>
            exact .take_staying (fun hends hu => wakeful_moves (hwakeful hu) (.dispatch hd hends)) hlive
              hsmooth htake hengine
        | @leaving before hheralds =>
            have hagenda := (Session.take?_cases htake).1
            rw [hheralds] at hagenda
            simp at hagenda
        | left hclosed hunheld => cases (h.settled.leaving hclosed).take?.symm.trans htake

theorem accompanied_step (h : Accompanied settings thread result bound steps w) {b : Bridge}
    {before after : List Job} {j j' : Job} (hjobs : w.jobs = before ++ j :: after)
    (hstep : j.advance? w.bridge = some (b, j')) (hsettled : (w.advanced b before j' after).Settled)
    (hapart : settings.resumeTimeout = none ∨ w.Apart) :
    Accompanied settings thread result bound (steps + 1) (w.advanced b before j' after) := by
  refine ⟨calm_advanced h.calm b before j' after, hsettled, ?_⟩
  rcases h.job with ⟨hnone, -⟩ | ⟨k, hk, rfl, hsteady, hresult, hover, hbound, hcase⟩
  · rw [hnone] at hjobs
    simp at hjobs
  · obtain ⟨rfl, rfl, rfl⟩ := splits_single hk hjobs
    have hless := stepsLeft_of_advance hsteady (answered_of_parting hcase) hstep
    have hown (hwakeful : settings.resumeTimeout = none → w.Wakeful) :
        Reports j.phase → ¬ w.session.Handing j.thread :=
      hapart.elim (fun hu => apart_of_wakeful (hwakeful hu)) id j (by rw [hk]; exact List.mem_cons_self)
    rw [jobs_advanced]
    rcases hcase with hparting | hending
    · obtain ⟨hsteady', hsame, hcase'⟩ := hparting.job hk hsteady hown hstep
      cases hover' : j'.result? with
      | some outcome => exact .inl ⟨rfl, by omega⟩
      | none =>
          have hthread' := (callStep_of_job hstep).2
          exact .inr ⟨j', rfl, hthread', hsteady', hsame.trans hresult, hover', by omega, hcase'⟩
    · rw [hending.step hsteady hstep]
      exact .inl ⟨rfl, by omega⟩

/-- The job gives up. -/
theorem accompanied_giveUp (h : Accompanied settings thread result bound steps w) {b : Bridge}
    {before after : List Job} {j j' : Job} (hjobs : w.jobs = before ++ j :: after)
    (hgive : j.giveUp? w.bridge = some (b, j')) (hsettled : (w.advanced b before j' after).Settled) :
    Accompanied settings thread result bound (steps + 1) (w.advanced b before j' after) := by
  refine ⟨calm_advanced h.calm b before j' after, hsettled, ?_⟩
  obtain ⟨p, milliseconds, hphase, -, -, -, hj'⟩ := giveUp?_cases hgive
  rcases h.job with ⟨hnone, -⟩ | ⟨k, hk, rfl, hsteady, hresult, hover, hbound, hcase⟩
  · rw [hnone] at hjobs
    simp at hjobs
  · obtain ⟨rfl, rfl, rfl⟩ := splits_single hk hjobs
    have hparting := hcase.resolve_right fun ⟨_, reply, hreply⟩ => by cases hphase.symm.trans hreply
    have hnext := hparting.giveUp hk hgive
    have hover' : j'.result? = none := by rw [hj']; exact hover
    have hless : j'.stepsLeft + 1 = j.stepsLeft := by
      rw [hj', Job.stepsLeft, Job.stepsLeft, hphase]
      rfl
    rw [jobs_advanced, hover']
    refine .inr ⟨j', rfl, ?_, ?_, ?_, hover', by omega, .inl hnext⟩
    · rw [hj']
      rfl
    · rw [hj']
      exact hsteady
    · rw [hj']
      exact hresult

/-- **Every move keeps the invariant**, if no decision is handed over while a call reports. -/
theorem accompanied_detachingStep (h : Accompanied settings thread result bound steps w) {act : Option Act}
    (hm : DetachingStep w act w')
    (hapart : settings.resumeTimeout = none ∨ w.Apart ∨ ∃ c, act = some (.call c)) :
    Accompanied settings thread result bound (steps + if Act.isJobStep act then 1 else 0) w' := by
  obtain ⟨hany, ⟨a, hact, hmild⟩, hstarted⟩ := hm
  have hsettled := (settled_anyStep h.settled hany).1
  have hapart' (hcall : ∀ c, act ≠ some (.call c)) : settings.resumeTimeout = none ∨ w.Apart :=
    hapart.imp_right fun ha => ha.resolve_right fun ⟨c, hc⟩ => hcall c hc
  cases hany with
  | dispatch hd =>
      exact accompanied_dispatch h hd hsettled (hapart' nofun) fun hhead => hstarted (by rw [hhead])
  | step hjobs hstep => exact accompanied_step h hjobs hstep hsettled (hapart' nofun)
  | giveUp hjobs hgive => exact accompanied_giveUp h hjobs hgive hsettled
  | begin =>
      cases hact
      rcases hmild with hmild | hmild
      · exact hmild.elim
      · cases hmild
  | call c =>
      cases hact
      have hc : c.IsMild ∨ c = .disconnect := hmild.imp_right fun he => by cases he; rfl
      refine ⟨⟨h.calm.attached, h.calm.traps, h.calm.held⟩, hsettled, ?_⟩
      refine h.job.imp_right fun ⟨j, hj, hthread, hsteady, hresult, hover, hbound, hcase⟩ => ?_
      have hcase' := hcase.imp_left fun hparting => hparting.call hc
      exact ⟨j, hj, hthread, hsteady, hresult, hover, hbound, hcase'⟩
  | report | abandonPause | interrupt => cases hact

end

/-! ### The main result -/

theorem staying_of_peaceful {s : Session} (h : s.Peaceful) : s.staying = s := by
  have hall : s.queue.events.filter (· ≠ .command .disconnect) = s.queue.events :=
    List.filter_eq_self.mpr fun e he => decide_eq_true fun hd => by
      subst hd
      exact h.events _ he
  unfold Session.staying EventQueue.staying
  rw [hall]

/-- Breakpoints that are set in advance neither end a session nor do they move its dispatcher. -/
theorem addBreakpoints_frame (breakpoints : List Breakpoint) (s : Session) :
    (s.addBreakpoints breakpoints).worker = s.worker ∧
      ((s.addBreakpoints breakpoints).IsLive ↔ s.IsLive) := by
  induction breakpoints generalizing s with
  | nil => exact ⟨rfl, .rfl⟩
  | cons b rest ih =>
      obtain ⟨cs, -, hcs⟩ := s.commanded_addBreakpoint b
      obtain ⟨hworker, hlive⟩ := ih (s.addBreakpoint b).2
      exact ⟨hworker.trans hcs.worker, hlive.trans hcs.isLive⟩

theorem accompanied_aboutToRun (settings : DebuggerSettings) (breakpoints : List Breakpoint)
    (thread : ThreadId) {i : Interpreter} (hi : i.IsFresh) (script : Script) :
    Accompanied settings thread (.script (i.run script).undisturbed)
      (8 * (Job.ofScript thread i script).run.checkpoints.length) 0
      (aboutToRun settings breakpoints thread i script) := by
  obtain ⟨hcalm, hjob⟩ := runsAlone_aboutToRun settings breakpoints thread hi script
  obtain ⟨hworker, hlive⟩ := addBreakpoints_frame breakpoints (Session.create settings)
  have hsettled : (aboutToRun settings breakpoints thread i script).Settled :=
    (settled_anyStep (settled_withSession (settled_create settings) hworker)
      (.begin (j := .ofScript thread i script) 1 (.inr ⟨i, script, rfl⟩) List.not_mem_nil)).1
  have hbridge : (aboutToRun settings breakpoints thread i script).bridge =
      ⟨(Session.create settings).addBreakpoints breakpoints, .create settings⟩ := bridge_begin _ _
  have hjobs : (aboutToRun settings breakpoints thread i script).jobs = [.ofScript thread i script] :=
    jobs_begin _ _
  refine ⟨hcalm, hsettled, .inr ?_⟩
  rcases hjob with hnone | ⟨j, hj, hthread, hsteady, hresult, hcase⟩
  · rw [hjobs] at hnone
    cases hnone
  · obtain rfl : .ofScript thread i script = j := List.singleton_inj.mp (hjobs.symm.trans hj)
    refine ⟨_, hj, hthread, hsteady, hresult, rfl, Nat.le_of_eq (Nat.zero_add _), .inl (.staying ?_ ?_ ?_)⟩
    · exact fun hu => wakeful_aboutToRun hu breakpoints thread i script
    · rw [session, hbridge]
      refine hlive.mpr ⟨?_, rfl⟩
      show SessionState.notStarted ≠ .terminated
      decide
    · have hnot : ¬ (Job.ofScript thread i script).Ending := by
        intro hending
        obtain ⟨-, reply, hreply⟩ := hending
        cases hreply
      have hsmooth := hcase.resolve_right hnot
      rw [session, engine]
      rw [staying_of_peaceful hsmooth.peaceful]
      exact hsmooth

/-- **Detaching never disturbs the script.** One interpreter on which nothing has run yet runs a script in a
fresh session, with any settings and any breakpoints, while the control side may ask to detach at any time.
With a bound on pauses this takes for granted that, whenever the dispatcher or the run makes a step, no call has
opened the slot of a pause without having reported it while a decision on its thread that the dispatcher has
taken is still to be handed over (`World.Apart`). Wherever that is:

* if the next step of the job is its last, then it gives what the run gives without a debugger;
* once the engine is detached, the next step of the job is always possible;
* the job has made no more than eight steps for each checkpoint that the run passes without a debugger. -/
theorem detachment_is_transparent {settings : DebuggerSettings} {breakpoints : List Breakpoint}
    {thread : ThreadId} {i : Interpreter} (hi : i.IsFresh) {script : Script} {trace : List (Option Act)}
    {w : World}
    (h : Execution (fun w act w' => DetachingStep w act w' ∧
      (settings.resumeTimeout = none ∨ w.Apart ∨ ∃ c, act = some (.call c)))
      (aboutToRun settings breakpoints thread i script) trace w) :
    (∀ j ∈ w.jobs, ∀ b j' result, j.advance? w.bridge = some (b, j') → j'.result? = some result →
      result = .script (i.run script).undisturbed) ∧
    (w.engine.closed = some .detached → ∀ j ∈ w.jobs, (j.advance? w.bridge).isSome = true) ∧
    trace.countP Act.isJobStep ≤ 8 * (Job.ofScript thread i script).run.checkpoints.length := by
  have hall := h.invariant
    (P := fun acts w => Accompanied settings thread (.script (i.run script).undisturbed)
      (8 * (Job.ofScript thread i script).run.checkpoints.length) (acts.countP Act.isJobStep) w)
    (accompanied_aboutToRun settings breakpoints thread hi script) fun {acts w act w'} _ ih hm => by
      rw [List.countP_append, List.countP_singleton]
      exact accompanied_detachingStep ih hm.1 hm.2
  rcases hall.job with ⟨hnone, hbound⟩ | ⟨j, hj, rfl, hsteady, hresult, hover, hbound, hcase⟩
  · rw [hnone]
    exact ⟨fun j hj => absurd hj List.not_mem_nil, fun _ j hj => absurd hj List.not_mem_nil, hbound⟩
  · rw [hj]
    refine ⟨fun k hk b j' result hstep hlast => ?_, fun hclosed k hk => ?_, by omega⟩
    · obtain rfl := List.mem_singleton.mp hk
      -- The last reply is harmless, so the run is what it is without one.
      have hsame : j'.run.undisturbed = k.run.undisturbed := by
        obtain ⟨point, heap, resume, hrun, ⟨-, -, rfl⟩ | ⟨-, -, -, -, rfl⟩ | ⟨reply, hphase, -, rfl⟩⟩ :=
          Job.advance?_cases hstep
        · rfl
        · rfl
        · have hharmless := answered_of_parting hcase point _ reply (by rw [hrun]; rfl) hphase
          rw [hrun] at hsteady
          dsimp only
          rw [hsteady.1 reply hharmless, hrun]
          rfl
      unfold Job.result? at hlast
      split at hlast
      · next outcome hdone =>
          rw [← Option.some.inj hlast, ← hresult, ← hsame, hdone]
          rfl
      · cases hlast
    · obtain rfl := List.mem_singleton.mp hk
      exact Job.isSome_advance hclosed hover

/-- The scheduler moves in this way too, where it does not close the queue before a run has started. -/
theorem execution_detachingStep_settleFrom {start w : World} {trace : List (Option Act)}
    (h : Execution DetachingStep start trace w) (limit : Nat) (hclosing : ∀ k < limit,
      (w.settleFrom [] k).1.session.worker.agenda.head? = some .closeQueue →
        ∀ j ∈ (w.settleFrom [] k).1.jobs, j.HasStarted) :
    ∃ acts, Execution DetachingStep start (trace ++ acts) (w.settleFrom [] limit).1 := by
  obtain ⟨acts, hrun, -⟩ := execution_settleFrom h limit fun k hk act w' hany hact => by
    refine ⟨hany, ⟨act, rfl, .inl (mild_of_isStep hact)⟩, fun hclose => hclosing k hk ?_⟩
    rw [hclose] at hany
    exact (dispatchStep?_of_anyStep hany).2
  exact ⟨acts, hrun⟩

/-- The world of a script that is stopped at its only line, and from which the control side detaches. -/
def parting : World :=
  stoppedAtBreakpoint.withSession (ControlCall.disconnect.run stoppedAtBreakpoint.session)

/-- The world before the last step of the run, which nobody holds any more. -/
def parted : World :=
  (parting.settleFrom [] 14).1

theorem execution_parted : ∃ trace, Execution DetachingStep
    (aboutToRun {} [{ resource := "main", line := 1 }] ⟨1⟩ {} oneLiner) trace parted := by
  have hstart : Execution DetachingStep (aboutToRun {} [{ resource := "main", line := 1 }] ⟨1⟩ {} oneLiner)
      [] (aboutToRun {} [{ resource := "main", line := 1 }] ⟨1⟩ {} oneLiner) := .start
  obtain ⟨first, hstopped⟩ := execution_detachingStep_settleFrom hstart 33 (by decide +kernel)
  have hcall : DetachingStep stoppedAtBreakpoint (some (.call .disconnect)) parting :=
    ⟨.call stoppedAtBreakpoint .disconnect, ⟨_, rfl, .inr rfl⟩, nofun⟩
  obtain ⟨last, hparted⟩ := execution_detachingStep_settleFrom (hstopped.next hcall) 14 (by decide +kernel)
  exact ⟨_, hparted⟩

/-- A script that was stopped at its only line when the control side detached prints its line and
returns. -/
theorem detachment_is_transparent_stopped : parted.engine.closed = some .detached ∧
    ∃ j ∈ parted.jobs, ∃ b j', j.advance? parted.bridge = some (b, j') ∧
      j'.result? = some (.script (Interpreter.run {} oneLiner).undisturbed) ∧
      (Interpreter.run {} oneLiner).undisturbed.1.output = #["1"] := by
  obtain ⟨trace, hparted⟩ := execution_parted
  obtain ⟨hresult, -, -⟩ := detachment_is_transparent ⟨rfl, rfl⟩ (hparted.mono fun hm => ⟨hm, .inl rfl⟩)
  have hlast : (parted.jobs.any fun j =>
      (j.advance? parted.bridge).any fun next => next.2.result?.isSome) = true := by
    decide +kernel
  obtain ⟨j, hj, hnext⟩ := List.any_eq_true.mp hlast
  obtain ⟨⟨b, j'⟩, hstep, hover⟩ := (Option.any_eq_true _ _).mp hnext
  obtain ⟨result, hgives⟩ := Option.isSome_iff_exists.mp hover
  obtain rfl := hresult j hj b j' result hstep hgives
  exact ⟨by decide +kernel, j, hj, b, j', hstep, hgives, by decide +kernel⟩

/-- The world in which the control side detached before a script ran. -/
def deserted : World :=
  let start := aboutToRun {} [] ⟨1⟩ {} oneLiner
  ((start.withSession (ControlCall.disconnect.run start.session)).settleFrom [] 11).1

/-- **A script that is disturbed.** The control side detached before the engine started. The queue is
closed by now, and so the script is refused to start, where it succeeds without a debugger. -/
theorem desertion_is_refused :
    (∃ trace, Execution AnyStep (aboutToRun {} [] ⟨1⟩ {} oneLiner) trace deserted ∧
      ∀ act ∈ trace, ∃ a : Act, act = some a ∧ (a.IsStep ∨ a = .call .disconnect)) ∧
    deserted.engine.closed = some .detached ∧
    (∃ j ∈ deserted.jobs, ∃ b j' i, j.advance? deserted.bridge = some (b, j') ∧
      j'.result? = some (.script (i, .error (.refused .closed)))) ∧
    (Interpreter.run {} oneLiner).undisturbed.2.isOk = true := by
  refine ⟨?_, by decide +kernel, ?_, by decide +kernel⟩
  · have hcall := Execution.single (AnyStep.call (aboutToRun {} [] ⟨1⟩ {} oneLiner) .disconnect)
    obtain ⟨acts, hdeserted, hsteps⟩ := execution_anyStep_settleFrom hcall 11
    refine ⟨_, hdeserted, fun act hact => ?_⟩
    rcases List.mem_append.mp hact with hact | hact
    · exact ⟨_, List.mem_singleton.mp hact, .inr rfl⟩
    · obtain ⟨a, ha, hstep⟩ := hsteps act hact
      exact ⟨a, ha, .inl hstep⟩
  · exact ⟨_, List.mem_cons_self, _, _, _, rfl, rfl⟩

end World

end Pausepoint
