import Pausepoint.Proofs.World.Curtailing
import Pausepoint.Proofs.World.Schedule
import Pausepoint.Proofs.World.Smooth

/-!
# Pausepoint.Proofs.World.Transparency

A debugger is transparent to the script that it holds.

`transparent` is the main result: one interpreter runs a script in a fresh session, while the
dispatcher, the control side and the clock do what they like, in any order, as long as nobody ends the
session (`World.MildMove`). If the run returns, then it returns what it returns without a debugger; and no
call at a load or at a line is ever answered by anything but consent or a timeout.

Without a bound on pauses everyone may move between any two steps of the others. With a bound, a pause may be
given up while its decision is queued or even dispatched; only the handing over of such a decision and the
report of the next pause must not overlap (`World.Apart`), as they do not where events are dispatched, and
pauses reported, in one piece. `debugger_is_noticed` says what may happen where they do, and in a session
whose scripts were loaded before it; `transparent_or_in_flight` says that nothing worse happens.

Both say so of the only job of a world (`World.SoleJob`): the first by `Smooth`, the second by `OnCourse`, which
does not know which decisions are stale.
-/

namespace Pausepoint

open Pausepoint.Language

/-! ### Who moves when -/

namespace World

/-- A move that ends nothing; nobody else begins a job. -/
def Act.IsMild : Act → Prop
  | .begin _ => False
  | .call c => c.IsMild
  | .dispatch _ | .step .. => True

/-- No call is between the opening of its slot and the report of its pause while a decision on its
thread is on its way from the target to the engine. So it is if the dispatcher handles an event in one
piece, and a call opens its slot and reports in one piece. -/
def Apart (w : World) : Prop :=
  ∀ j ∈ w.jobs, Reports j.phase → ¬ w.session.Handing j.thread

/-- **Who may move**: everyone, by a move that ends nothing. The dispatcher takes an event or does a task, a
call makes a step or gives up, or the control side makes a call other than to terminate, to disconnect or to
cancel. -/
structure MildMove (w : World) (act : Act) (w' : World) : Prop where
  moves : Moves w act w'
  mild : act.IsMild

/-- Dispatcher and job end nothing. -/
theorem mild_of_isStep {act : Act} (h : act.IsStep) : act.IsMild := by
  cases act with
  | dispatch | step => trivial
  | begin | call => exact h.elim

theorem mildMove_of_isStep {w : World} {act : Act} {w' : World} (hm : Moves w act w') (hact : act.IsStep) :
    MildMove w act w' :=
  ⟨hm, mild_of_isStep hact⟩

/-- A fresh session with some breakpoints, in which a thread is about to run a script. -/
def aboutToRun (settings : DebuggerSettings) (breakpoints : List Breakpoint) (thread : ThreadId)
    (i : Interpreter) (script : Script) : World :=
  ((create settings true).withSession ((Session.create settings).addBreakpoints breakpoints)).begin
    (.ofScript thread i script)

/-! ### A world with one job -/

/-- The only job there is belongs to a thread and has a property, or it is over. -/
structure SoleJob (thread : ThreadId) (P : Bridge → Job → Prop) (w : World) : Prop where
  calm : w.Calm
  job : w.jobs = [] ∨ ∃ j, w.jobs = [j] ∧ j.thread = thread ∧ P w.bridge j

namespace SoleJob

variable {thread : ThreadId} {P : Bridge → Job → Prop} {w w' : World}

/-- The job moved, and may be over after that. -/
theorem advanced (h : SoleJob thread P w) {b : Bridge} {before after : List Job} {j j' : Job}
    (hjobs : w.jobs = before ++ j :: after) (hthread : j'.thread = j.thread)
    (hnext : P w.bridge j → P b j' ∨ j'.result?.isSome = true) :
    SoleJob thread P (w.advanced b before j' after) := by
  refine ⟨calm_advanced h.calm b before j' after, ?_⟩
  rcases h.job with hnone | ⟨k, hk, rfl, hcase⟩
  · rw [hnone] at hjobs
    simp at hjobs
  · obtain ⟨rfl, rfl, rfl⟩ := splits_single hk hjobs
    rw [bridge_advanced, jobs_advanced]
    by_cases hover : j'.result?.isSome = true
    · rw [if_pos hover]
      exact .inl rfl
    · rw [if_neg hover]
      exact .inr ⟨j', rfl, hthread, (hnext hcase).resolve_right hover⟩

/-- The dispatcher moved, which changes no more of the job than whether clients know of its stop. -/
theorem dispatch (h : SoleJob thread P w) {reports : List Report}
    (hd : w.dispatchStep? = some (w', reports))
    (hsame : ∀ {b j k}, k.thread = j.thread → k.phase = j.phase → k.run = j.run → P b j → P b k)
    (hperform : ∀ {j task session}, j ∈ w.jobs → w.session.perform? = some (task, session) →
      P w.bridge j → P { session, engine := effectOnEngine w.engine task } j)
    (htake : ∀ {j session}, j ∈ w.jobs → w.session.take? = some session →
      P w.bridge j → P { w.bridge with session } j) :
    SoleJob thread P w' := by
  obtain ⟨hcalm, ⟨f, hjobs, hf⟩, hb⟩ := dispatchStep?_cases h.calm hd
  refine ⟨hcalm, ?_⟩
  rcases h.job with hnone | ⟨j, hj, hthread, hcase⟩
  · rw [hjobs, hnone]
    exact .inl rfl
  · obtain ⟨hthread', hphase, hrun⟩ := hf j
    have hmem : j ∈ w.jobs := by
      rw [hj]
      exact List.mem_cons_self
    refine .inr ⟨f j, by rw [hjobs, hj, List.map_singleton], hthread'.trans hthread,
      hsame hthread' hphase hrun ?_⟩
    rcases hb with ⟨task, session, hs, hb⟩ | ⟨session, -, hs, hb⟩
    · rw [hb]
      exact hperform hmem hs hcase
    · rw [hb]
      exact htake hmem hs hcase

/-- The control side made a call. -/
theorem call (h : SoleJob thread P w) {session : Session}
    (hcall : ∀ {j}, P w.bridge j → P { w.bridge with session } j) :
    SoleJob thread P (w.withSession session) :=
  ⟨⟨h.calm.attached, h.calm.traps, h.calm.held⟩,
    h.job.imp_right fun ⟨j, hj, hthread, hcase⟩ => ⟨j, hj, hthread, hcall hcase⟩⟩

end SoleJob

/-! ### The invariant -/

/-- **The invariant**: the only job is the run of a thread, which goes on as if it were alone, or it is
over. -/
abbrev RunsAlone (thread : ThreadId) (result : JobResult) : World → Prop :=
  SoleJob thread fun b j => j.run.Steady ∧ j.run.undisturbed = result ∧
    (Smooth j.thread b j.run.checkpoints j.phase ∨ j.Ending)

section

variable {thread : ThreadId} {result : JobResult} {w w' : World}

/-- A step of the dispatcher. -/
theorem runsAlone_dispatch (h : RunsAlone thread result w) {reports : List Report}
    (hd : w.dispatchStep? = some (w', reports)) (hapart : w.Apart) :
    RunsAlone thread result w' := by
  refine h.dispatch hd ?_ ?_ ?_
  · intro b j k hthread hphase hrun hcase
    rw [Job.Ending, hthread, hphase, hrun]
    exact hcase
  · exact fun hj hs ⟨hsteady, hresult, hcase⟩ =>
      ⟨hsteady, hresult, hcase.imp_left fun hsmooth => hsmooth.perform (hapart _ hj) hs⟩
  · exact fun _ hs ⟨hsteady, hresult, hcase⟩ =>
      ⟨hsteady, hresult, hcase.imp_left fun hsmooth => hsmooth.take hs⟩

theorem runsAlone_step (h : RunsAlone thread result w) {b : Bridge} {before after : List Job}
    {j j' : Job} (hjobs : w.jobs = before ++ j :: after) (hstep : j.advance? w.bridge = some (b, j'))
    (hclash : Reports j.phase → ¬ w.session.Handing j.thread) :
    RunsAlone thread result (w.advanced b before j' after) := by
  obtain ⟨-, hthread⟩ := callStep_of_job hstep
  refine h.advanced hjobs hthread ?_
  rintro ⟨hsteady, hresult, hsmooth | hending⟩
  · obtain ⟨hsteady', hsame, hcase⟩ := hsmooth.job hsteady hclash hstep
    rw [hthread]
    exact .inl ⟨hsteady', hsame.trans hresult, hcase⟩
  · rw [hending.step hsteady hstep]
    exact .inr rfl

/-- A call gives up. -/
theorem runsAlone_giveUp (h : RunsAlone thread result w) {b : Bridge} {before after : List Job}
    {j j' : Job} (hjobs : w.jobs = before ++ j :: after) (hgive : j.giveUp? w.bridge = some (b, j')) :
    RunsAlone thread result (w.advanced b before j' after) := by
  obtain ⟨p, milliseconds, hphase, -, -, rfl, rfl⟩ := giveUp?_cases hgive
  refine h.advanced hjobs rfl ?_
  rintro ⟨hsteady, hresult, hsmooth | ⟨-, reply, hreturned⟩⟩
  · rw [hphase] at hsmooth
    exact .inl ⟨hsteady, hresult, .inl (hsmooth.giveUp milliseconds)⟩
  · cases hphase.symm.trans hreturned

/-- Commands are queued that end nothing. -/
theorem runsAlone_commanded (h : RunsAlone thread result w) {session : Session} {cs : List Command}
    (hcs : w.session.Commanded session cs) (hmild : ∀ c ∈ cs, c.IsMild) :
    RunsAlone thread result (w.withSession session) :=
  h.call fun ⟨hsteady, hresult, hcase⟩ =>
    ⟨hsteady, hresult, hcase.imp_left fun hsmooth => hsmooth.commanded hcs hmild⟩

/-- A call of the control side. -/
theorem runsAlone_call (h : RunsAlone thread result w) {c : ControlCall} (hc : c.IsMild) :
    RunsAlone thread result (w.withSession (c.run w.session)) := by
  obtain ⟨cs, hmild, hcs⟩ := ControlCall.mild_commanded w.session hc
  exact runsAlone_commanded h hcs hmild

/-- **Every move keeps the invariant**, if no decision is handed over while a call reports. -/
theorem runsAlone_moves (h : RunsAlone thread result w) {act : Act} (hm : MildMove w act w')
    (hapart : act.IsStep → w.Apart) : RunsAlone thread result w' := by
  obtain ⟨hmoves, hmild⟩ := hm
  cases hmoves with
  | dispatch hd hends => exact runsAlone_dispatch h hd (hapart trivial)
  | @step b before after j j' hjobs hstep =>
      exact runsAlone_step h hjobs hstep (hapart trivial j (by rw [hjobs]; simp))
  | giveUp hjobs hgive => exact runsAlone_giveUp h hjobs hgive
  | begin => exact hmild.elim
  | call c hc => exact runsAlone_call h hmild

/-- Calls that wait without a bound are apart from decisions: those find them waiting. -/
theorem apart_of_wakeful (h : w.Wakeful) : w.Apart := by
  intro j hj hreports hh
  obtain ⟨p, hp⟩ := hreports
  obtain ⟨-, q, hq⟩ := (h.shakesHands j.thread).handed hh
  rw [phaseOf_of_mem h.distinct hj, hp] at hq
  cases hq

end

/-! ### The main result -/

theorem runsAlone_aboutToRun (settings : DebuggerSettings) (breakpoints : List Breakpoint)
    (thread : ThreadId) {i : Interpreter} (hi : i.IsFresh) (script : Script) :
    RunsAlone thread (.script (i.run script).undisturbed)
      (aboutToRun settings breakpoints thread i script) := by
  obtain ⟨hpeaceful, hgate⟩ :=
    (Session.peaceful_create settings).addBreakpoints breakpoints
  obtain ⟨points, hpoints, htrail⟩ := checkpoints_run hi script
  have hrun : (Job.ofScript thread i script).run.checkpoints = .started :: (points ++ [.ended]) := by
    show ((i.run script).bind _).checkpoints = _
    rw [Run.checkpoints_bind, hpoints, Run.checkpoints, List.append_nil]
  have ha : Announced [] points := by
    rcases htrail with rfl | ⟨rest, i', rfl, htrail⟩
    · trivial
    · exact htrail.announced
  refine ⟨calm_begin ⟨rfl, rfl, rfl⟩ _, .inr ⟨.ofScript thread i script, ?_, rfl, ?_, ?_, .inl ?_⟩⟩
  · unfold aboutToRun
    rw [jobs_begin]
    rfl
  · exact Run.steady_bind (steady_run i script) fun _ => trivial
  · exact Run.undisturbed_bind _ _
  · rw [hrun]
    unfold aboutToRun
    rw [bridge_begin]
    refine ⟨⟨hpeaceful, rfl, .unstarted (congrArg Gate.phase hgate) ha⟩, Unstale.fresh ?_⟩
    show thread ∉ ((Session.create settings).addBreakpoints breakpoints).gate.paused
    rw [hgate]
    exact List.not_mem_nil

theorem wakeful_addBreakpoints (breakpoints : List Breakpoint) {w : World} (h : w.Wakeful) :
    (w.withSession (w.session.addBreakpoints breakpoints)).Wakeful := by
  induction breakpoints generalizing w with
  | nil => exact h
  | cons b rest ih =>
      have hcall : ControlCall.addBreakpoint b ≠ .cancel := nofun
      exact ih (wakeful_call h hcall)

theorem wakeful_aboutToRun {settings : DebuggerSettings} (ht : settings.resumeTimeout = none)
    (breakpoints : List Breakpoint) (thread : ThreadId) (i : Interpreter) (script : Script) :
    (aboutToRun settings breakpoints thread i script).Wakeful :=
  wakeful_begin (wakeful_addBreakpoints breakpoints (wakeful_create ht)) 1 rfl nofun

/-- The invariant of the run, in every execution in which no decision is handed over while a call reports. -/
theorem runsAlone_of_execution {settings : DebuggerSettings} {breakpoints : List Breakpoint}
    {thread : ThreadId} {i : Interpreter} (hi : i.IsFresh) {script : Script} {trace : List Act}
    {w : World}
    (h : Execution (fun w act w' => MildMove w act w' ∧
      (act.IsStep → settings.resumeTimeout = none ∨ w.Apart))
      (aboutToRun settings breakpoints thread i script) trace w) :
    RunsAlone thread (.script (i.run script).undisturbed) w ∧
      (settings.resumeTimeout = none → w.Wakeful) := by
  refine h.state_invariant (P := fun w => RunsAlone thread (.script (i.run script).undisturbed) w ∧
    (settings.resumeTimeout = none → w.Wakeful)) ?_ ?_
  · exact ⟨runsAlone_aboutToRun settings breakpoints thread hi script,
      fun ht => wakeful_aboutToRun ht breakpoints thread i script⟩
  · rintro w act w' ⟨halone, hwakeful⟩ ⟨hmove, hapart⟩
    refine ⟨runsAlone_moves halone hmove fun hact => ?_, fun ht => wakeful_moves (hwakeful ht) hmove.moves⟩
    -- Without a bound on pauses decisions and reports are apart by themselves.
    exact (hapart hact).elim (fun ht => apart_of_wakeful (hwakeful ht)) id

/-- What the invariant says of the only job. -/
theorem RunsAlone.unnoticed {thread : ThreadId} {result : JobResult} {w : World}
    (h : RunsAlone thread result w) {j : Job} (hj : j ∈ w.jobs) :
    (∀ b j' last, j.advance? w.bridge = some (b, j') → j'.result? = some last → last = result) ∧
      (∀ point heap resume reply, j.run = .ask point heap resume → point ≠ .ended →
        j.phase = some (.returned reply) →
          reply = .ok () ∨ ∃ milliseconds, reply = .error (.resumeTimeout milliseconds)) := by
  rcases h.job with hnone | ⟨k, hk, -, hsteady, hresult, hcase⟩
  · rw [hnone] at hj
    cases hj
  · rw [hk] at hj
    obtain rfl := List.mem_singleton.mp hj
    refine ⟨fun b j' last hstep hover => ?_, fun point heap resume reply hrun hne hphase => ?_⟩
    · rcases hcase with hsmooth | hending
      · rw [hsmooth.result?_eq_none hsteady hstep] at hover
        cases hover
      · rw [hending.step hsteady hstep, hresult] at hover
        exact (Option.some.inj hover).symm
    · rcases hcase with hsmooth | ⟨hpoints, -⟩
      · rw [hrun, hphase] at hsmooth
        obtain ⟨hharmless, -⟩ := hsmooth.leave
        cases point with
        | started => exact .inl hharmless
        | load | line => exact hharmless
        | ended => exact absurd rfl hne
      · rw [hrun] at hpoints
        exact absurd (List.cons.inj hpoints).1 hne

/-- **The debugger is transparent.** One interpreter on which nothing has run yet runs a script in a
fresh session, with any settings and any breakpoints, while nobody ends the session. With a bound on pauses
this takes for granted that, whenever the dispatcher or the run makes a step, no call has opened the slot of
a pause without having reported it while a decision on its thread that the dispatcher has taken is still to be
handed over (`World.Apart`). Wherever that is:

* if the next step of the job is its last, then it gives what the run gives without a debugger, which is
  the interpreter with its output, its globals and its next script number, and whether it succeeded;
* a call at a load or at a line that has returned was answered by consent, or by a timeout. -/
theorem transparent {settings : DebuggerSettings} {breakpoints : List Breakpoint} {thread : ThreadId}
    {i : Interpreter} (hi : i.IsFresh) {script : Script} {trace : List Act} {w : World}
    (h : Execution (fun w act w' => MildMove w act w' ∧
      (act.IsStep → settings.resumeTimeout = none ∨ w.Apart))
      (aboutToRun settings breakpoints thread i script) trace w) :
    ∀ j ∈ w.jobs,
      (∀ b j' result, j.advance? w.bridge = some (b, j') → j'.result? = some result →
        result = .script (i.run script).undisturbed) ∧
      (∀ point heap resume reply, j.run = .ask point heap resume → point ≠ .ended →
        j.phase = some (.returned reply) →
          reply = .ok () ∨ ∃ milliseconds, reply = .error (.resumeTimeout milliseconds)) :=
  fun _ hj => (runsAlone_of_execution hi h).1.unnoticed hj

/-- A script of one line. -/
def oneLiner : Script :=
  { id := ⟨0⟩, source := "print 1", resource := some "main" }

/-- The world at the stop of its only line, where a breakpoint is. -/
def stoppedAtBreakpoint : World :=
  ((aboutToRun {} [{ resource := "main", line := 1 }] ⟨1⟩ {} oneLiner).settleFrom [] 33).1

/-- The world before the last step of its run, once the thread was told to go on. -/
def aboutToReturn : World :=
  ((stoppedAtBreakpoint.withSession (stoppedAtBreakpoint.session.resume ⟨1⟩ .resume).2).settleFrom
    [] 18).1

/-- A run that is stopped at a breakpoint prints what it prints without a debugger. -/
theorem transparent_oneLiner :
    ∃ j ∈ aboutToReturn.jobs, ∃ b j', j.advance? aboutToReturn.bridge = some (b, j') ∧
      j'.result? = some (.script (Interpreter.run {} oneLiner).undisturbed) ∧
      (Interpreter.run {} oneLiner).undisturbed.1.output = #["1"] := by
  have hstart : Execution MildMove (aboutToRun {} [{ resource := "main", line := 1 }] ⟨1⟩ {} oneLiner) []
      (aboutToRun {} [{ resource := "main", line := 1 }] ⟨1⟩ {} oneLiner) := .start
  obtain ⟨_, hstopped, -⟩ := execution_of_settleFrom mildMove_of_isStep hstart 33 (by decide +kernel)
  have hresume : MildMove stoppedAtBreakpoint _ _ :=
    ⟨.call stoppedAtBreakpoint (.resume ⟨1⟩ .resume) nofun, trivial⟩
  obtain ⟨_, hreturning, -⟩ :=
    execution_of_settleFrom mildMove_of_isStep (hstopped.next hresume) 18 (by decide +kernel)
  have hlast : (aboutToReturn.jobs.any fun j =>
      (j.advance? aboutToReturn.bridge).any fun next => next.2.result?.isSome) = true := by
    decide +kernel
  obtain ⟨j, hj, hnext⟩ := List.any_eq_true.mp hlast
  obtain ⟨⟨b, j'⟩, hstep, hover⟩ := (Option.any_eq_true _ _).mp hnext
  obtain ⟨result, hresult⟩ := Option.isSome_iff_exists.mp hover
  obtain ⟨hsame, -⟩ := transparent ⟨rfl, rfl⟩ (hreturning.mono fun hm => ⟨hm, fun _ => .inl rfl⟩) j hj
  obtain rfl := hsame b j' result hstep hresult
  exact ⟨j, hj, b, j', hstep, hresult, by decide +kernel⟩

/-! ### What it takes -/

/-- A schedule of the dispatcher and the job. -/
theorem execution_mildMove_played (w : World) (schedule : List Choice)
    (hfree : schedule.all Choice.isFree = true) :
    Execution MildMove w (w.played schedule).1 (w.played schedule).2 :=
  (execution_played w schedule).restrict fun hact hm => mildMove_of_isStep hm (isStep_of_played hfree _ hact)

/-- Why the first job is refused to go on, if its next step is its last. -/
def lastRefusal? (w : World) : Option Refusal :=
  w.jobs.head?.bind fun j => (j.advance? w.bridge).bind fun next =>
    match next.2.result? with
    | some (.script (_, .error (.refused cause))) => some cause
    | _ => none

theorem refused_of_lastRefusal? {w : World} {cause : Refusal} (h : w.lastRefusal? = some cause) :
    ∃ j ∈ w.jobs, ∃ b j' i, j.advance? w.bridge = some (b, j') ∧
      j'.result? = some (.script (i, .error (.refused cause))) := by
  obtain ⟨j, hhead, hnext⟩ := Option.bind_eq_some_iff.mp h
  obtain ⟨⟨b, j'⟩, hstep, hcause⟩ := Option.bind_eq_some_iff.mp hnext
  dsimp only at hcause
  split at hcause
  · next i refused hresult =>
      cases hcause
      exact ⟨j, List.mem_of_head? hhead, b, j', i, hstep, hresult⟩
  · cases hcause

/-- A script of three lines. -/
def threeLiner : Script :=
  { id := ⟨0⟩, source := "let a = 1\nprint a\nprint 2", resource := some "main" }

/-- It is about to run, with a breakpoint on every line and a bound on pauses. -/
def aboutToRunInTime : World :=
  aboutToRun { resumeTimeoutMs := 1 } ([1, 2, 3].map fun line => { resource := "main", line }) ⟨1⟩ {}
    threeLiner

/-- It is stopped at its first line, and is told to go on. -/
def toldToGoOn : World :=
  let stopped := (aboutToRunInTime.settleFrom [] 41).1
  stopped.withSession (stopped.session.resume ⟨1⟩ .resume).2

/-- The dispatcher takes the decision and is about to hand it over when the call gives up. The next line
stops the script again, the decision lets it go on from there, and the line after that stops it once more. -/
def handedOverLate : World :=
  (toldToGoOn.played (.replicate 4 .dispatch ++ .giveUp :: .replicate 7 .job ++
    .dispatch :: .replicate 9 .job)).2

theorem execution_handedOverLate : ∃ trace, Execution MildMove aboutToRunInTime trace handedOverLate := by
  have hstart : Execution MildMove aboutToRunInTime [] aboutToRunInTime := .start
  obtain ⟨_, hstopped, -⟩ := execution_of_settleFrom mildMove_of_isStep hstart 41 (by decide +kernel)
  have htold : MildMove (aboutToRunInTime.settleFrom [] 41).1 _ toldToGoOn :=
    ⟨.call _ (.resume ⟨1⟩ .resume) nofun, trivial⟩
  exact ⟨_, (hstopped.next htold).append (execution_mildMove_played toldToGoOn _ (by decide))⟩

/-- An interpreter that has run a script without a debugger, and knows its function from there. -/
def acquainted : Interpreter :=
  (Interpreter.run { nextScript := 2 }
    { id := ⟨1⟩, source := "fn f\n  print 1\nend", resource := some "lib" }).undisturbed.1

/-- Code that calls the function, from no resource. -/
def foreignCall : Script :=
  { id := ⟨2⟩, source := "call f" }

/-- It is about to run. -/
def aboutToCall : World :=
  aboutToRun {} [] ⟨1⟩ acquainted foreignCall

/-- The engine has started when a breakpoint is installed in the function. -/
def breakpointAhead : World :=
  let started := (aboutToCall.played [.job, .dispatch, .dispatch]).2
  started.withSession (started.session.setBreakpoint ⟨1⟩ { resource := "lib", line := 2 }).2

/-- The function stops at it. -/
def stoppedUnannounced : World :=
  (breakpointAhead.played (.replicate 3 .dispatch ++ .replicate 13 .job)).2

theorem execution_stoppedUnannounced : ∃ trace, Execution MildMove aboutToCall trace stoppedUnannounced := by
  have hstarted := execution_mildMove_played aboutToCall [.job, .dispatch, .dispatch] (by decide)
  have hinstalled : MildMove (aboutToCall.played [.job, .dispatch, .dispatch]).2 _ breakpointAhead :=
    ⟨.call _ (.setBreakpoint ⟨1⟩ { resource := "lib", line := 2 }) nofun, trivial⟩
  exact ⟨_, (hstarted.next hinstalled).append (execution_mildMove_played breakpointAhead _ (by decide))⟩

/-- **Debuggers that are noticed**, by scripts that succeed without one. A decision that came too late lets a
script go on from its second line without a word to the gate, which refuses the third stop. And a function
that is known from an earlier run stops in a session in which no script was announced, so that the gate refuses
the stop of a thread that it does not know. -/
theorem debugger_is_noticed :
    ((∃ trace, Execution MildMove aboutToRunInTime trace handedOverLate) ∧
      (∃ j ∈ handedOverLate.jobs, ∃ b j' i, j.advance? handedOverLate.bridge = some (b, j') ∧
        j'.result? = some (.script (i, .error (.refused (.pauseInFlight ⟨1⟩))))) ∧
      (Interpreter.run {} threeLiner).undisturbed.2.isOk = true) ∧
    (∃ trace, Execution MildMove aboutToCall trace stoppedUnannounced) ∧
    (∃ j ∈ stoppedUnannounced.jobs, ∃ b j' i, j.advance? stoppedUnannounced.bridge = some (b, j') ∧
      j'.result? = some (.script (i, .error (.refused (.unknownThread ⟨1⟩))))) ∧
    (acquainted.run foreignCall).undisturbed.2.isOk = true :=
  ⟨⟨execution_handedOverLate, refused_of_lastRefusal? (by decide +kernel), by decide +kernel⟩,
    execution_stoppedUnannounced, refused_of_lastRefusal? (by decide +kernel), by decide +kernel⟩

/-! ### Whatever the schedule -/

/-- Where the only job is, whoever moves when: it goes on, it was refused a pause, or it has given up its
script after that. -/
inductive Bears (result : Outcome) (b : Bridge) (j : Job) : Prop
  | goesOn (hsteady : j.run.Steady) (hresult : j.run.undisturbed = .script result)
      (hcurtails : j.run.Curtails result.1.output.toList)
      (hcase : OnCourse j.thread b j.run.checkpoints j.phase ∨ j.Ending ∨ j.InFlight)
  | resigned (h : j.Resigned result.1.output.toList)

/-- Such a result is the one without a debugger, or that of a script that was refused a pause. -/
def Bearable (thread : ThreadId) (result : Outcome) (last : JobResult) : Prop :=
  last = .script result ∨ ∃ i : Interpreter, i.output.toList <+: result.1.output.toList ∧
    last = .script (i, .error (.refused (.pauseInFlight thread)))

section

variable {thread : ThreadId} {result : Outcome} {w w' : World}

/-- **A step of the job** goes on, or is the last. -/
theorem Bears.advance {b b' : Bridge} {j j' : Job} (h : Bears result b j)
    (hstep : j.advance? b = some (b', j')) :
    Bears result b' j' ∧ j'.result? = none ∨
      ∃ last, j'.result? = some last ∧ Bearable j.thread result last := by
  obtain ⟨-, hthread⟩ := callStep_of_job hstep
  cases h with
  | goesOn hsteady hresult hcurtails hcase =>
      rcases hcase with hcourse | hending | hflight
      · refine .inl ⟨?_, hcourse.result?_eq_none hsteady hstep⟩
        have hcurtails' := hcourse.curtails hsteady hstep hcurtails
        rcases hcourse.job hsteady hstep with ⟨hsteady', hsame, hnext⟩ | ⟨-, hrun, hflight⟩
        · rw [← hthread] at hnext
          exact .goesOn hsteady' (hsame.trans hresult) hcurtails' (hnext.imp_right .inl)
        · refine .goesOn ?_ ?_ hcurtails' (.inr (.inr hflight)) <;> rw [hrun]
          · exact hsteady
          · exact hresult
      · exact .inr ⟨_, (hending.step hsteady hstep).trans (congrArg some hresult), .inl rfl⟩
      · obtain ⟨rfl, hresigned⟩ := hflight.advance hcurtails hstep
        refine .inl ⟨.resigned hresigned, ?_⟩
        obtain ⟨heap, i, -, hrun⟩ := hresigned
        rw [Job.result?, hrun]
  | resigned hresigned =>
      rcases hresigned.advance hstep with ⟨hnext, hnone⟩ | ⟨i, hprinted, hlast⟩
      · exact .inl ⟨.resigned hnext, hnone⟩
      · exact .inr ⟨_, hlast, .inr ⟨i, hprinted, rfl⟩⟩

/-- **Every move is borne.** -/
theorem bears_mildMove (h : SoleJob thread (Bears result) w) {act : Act} (hm : MildMove w act w') :
    SoleJob thread (Bears result) w' := by
  obtain ⟨hmoves, hmild⟩ := hm
  -- What others do touches the run only while it is on its course.
  have hother {b b' : Bridge} {j : Job} (hbears : Bears result b j)
      (hcourse : OnCourse j.thread b j.run.checkpoints j.phase →
        OnCourse j.thread b' j.run.checkpoints j.phase) : Bears result b' j := by
    cases hbears with
    | goesOn hsteady hresult hcurtails hcase =>
        exact .goesOn hsteady hresult hcurtails (hcase.imp_left hcourse)
    | resigned hresigned => exact .resigned hresigned
  cases hmoves with
  | dispatch hd hends =>
      refine h.dispatch hd ?_ ?_ ?_
      · intro b j k hthread hphase hrun hbears
        cases hbears with
        | goesOn hsteady hresult hcurtails hcase =>
            refine .goesOn (hrun ▸ hsteady) (hrun ▸ hresult) (hrun ▸ hcurtails) ?_
            rw [Job.Ending, Job.InFlight, hthread, hphase, hrun]
            exact hcase
        | resigned hresigned =>
            refine .resigned ?_
            rw [Job.Resigned, hthread, hrun]
            exact hresigned
      · exact fun _ hs hbears => hother hbears fun hcourse => hcourse.perform hs
      · exact fun _ hs hbears => hother hbears fun hcourse => hcourse.take hs
  | @step b before after j j' hjobs hstep =>
      obtain ⟨-, hthread⟩ := callStep_of_job hstep
      refine h.advanced hjobs hthread fun hbears => ?_
      rcases hbears.advance hstep with ⟨hnext, -⟩ | ⟨last, hlast, -⟩
      · exact .inl hnext
      · exact .inr (by rw [hlast]; rfl)
  | giveUp hjobs hgive =>
      obtain ⟨p, milliseconds, hphase, -, -, rfl, rfl⟩ := giveUp?_cases hgive
      refine h.advanced hjobs rfl fun hbears => .inl ?_
      cases hbears with
      | resigned hresigned => exact .resigned hresigned
      | goesOn hsteady hresult hcurtails hcase =>
          rcases hcase with hcourse | ⟨-, reply, hreturned⟩ | ⟨hreturned, -⟩
          · rw [hphase] at hcourse
            exact .goesOn hsteady hresult hcurtails (.inl (hcourse.giveUp milliseconds))
          · cases hphase.symm.trans hreturned
          · cases hphase.symm.trans hreturned
  | begin => exact hmild.elim
  | call c hc =>
      obtain ⟨cs, hmildly, hcs⟩ := ControlCall.mild_commanded w.session hmild
      exact h.call fun hbears => hother hbears fun hcourse => hcourse.commanded hcs hmildly

/-- **At worst a pause is refused.** The same as `transparent`, without anything taken for granted about who
moves when: the run gives what it gives without a debugger, or, if there is a bound on pauses, one of its
pauses met an earlier one that a decision came too late for, and was refused; then the script has printed the
first lines of what it prints otherwise. -/
theorem transparent_or_in_flight {settings : DebuggerSettings} {breakpoints : List Breakpoint}
    {i : Interpreter} (hi : i.IsFresh) {script : Script} {trace : List Act}
    (h : Execution MildMove (aboutToRun settings breakpoints thread i script) trace w) :
    ∀ j ∈ w.jobs, ∀ b j' last, j.advance? w.bridge = some (b, j') → j'.result? = some last →
      last = .script (i.run script).undisturbed ∨
        settings.resumeTimeout ≠ none ∧ Bearable thread (i.run script).undisturbed last := by
  intro j hj b j' last hstep hover
  by_cases ht : settings.resumeTimeout = none
  · obtain ⟨halone, -⟩ := runsAlone_of_execution hi (h.mono fun hm => ⟨hm, fun _ => .inl ht⟩)
    exact .inl ((halone.unnoticed hj).1 b j' last hstep hover)
  · refine .inr ⟨ht, ?_⟩
    -- With a bound on pauses the run may be at odds with its debugger, but it bears that.
    have hbears : SoleJob thread (Bears (i.run script).undisturbed) w := by
      refine h.state_invariant ?_ fun hbears hm => bears_mildMove hbears hm
      have hstart := runsAlone_aboutToRun settings breakpoints thread hi script
      refine ⟨hstart.calm, hstart.job.imp_right ?_⟩
      rintro ⟨k, hk, hthread, hsteady, hresult, hcase⟩
      obtain rfl : k = .ofScript thread i script := by
        unfold aboutToRun at hk
        rw [jobs_begin] at hk
        exact (List.singleton_inj.mp hk).symm
      exact ⟨_, hk, hthread, .goesOn hsteady hresult (curtails_ofScript thread i script)
        (hcase.imp Smooth.toOnCourse .inl)⟩
    rcases hbears.job with hnone | ⟨k, hk, rfl, hcase⟩
    · rw [hnone] at hj
      cases hj
    · rw [hk] at hj
      obtain rfl := List.mem_singleton.mp hj
      rcases hcase.advance hstep with ⟨-, hnone⟩ | ⟨last', hlast, hbearable⟩
      · cases hnone.symm.trans hover
      · cases hlast.symm.trans hover
        exact hbearable

end

end World

end Pausepoint
