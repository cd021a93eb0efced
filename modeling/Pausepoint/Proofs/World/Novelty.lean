import Pausepoint.Proofs.Language.Numbers
import Pausepoint.Proofs.Session.Sightings
import Pausepoint.Proofs.World.Transparency
import Pausepoint.Proofs.World.MoveOrEnd

/-!
# Pausepoint.Proofs.World.Novelty

A script that is announced is new.

An interpreter gives every script that it loads a number above those of all scripts before. So the session
has not heard of a script when its announcement is dispatched, and neither the engine nor a command on its
way has anything about it (`Foresees.not_mem_prospect`).

## Proof shape

The reports of a run climb (`Run.Climbs`), whatever is replied. `Job.Climbs` says the same of a run that is
in the middle of a call, which may have something to report yet. The invariant `World.Foresees` joins this
to what the session knows: some number is above everything the session has heard of, the reports that wait
lead from there to another number, and the job goes on from that one. Every move keeps it
(`Foresees.moveOrEnd`), with a higher number perhaps.
-/

namespace Pausepoint

open Pausepoint.Language (Checkpoint Run Interpreter)

/-! ### What a call has to report -/

/-- From one bound to another: so do the reports that a call may still make about scripts. -/
def Phase.Lifts (lo hi : Nat) : Phase → Prop
  | .entering r => lo ≤ hi ∧
      ∀ (e : Engine) thread p, e.decide thread r = .pause p → p.report.Lifts lo hi
  | .opening p | .reporting p => p.report.Lifts lo hi
  | .waiting _ | .confirming _ | .abandoning _ | .excusing _ | .returned _ => lo ≤ hi

/-- A step of a job takes the bound up by what it reports. -/
structure Bridge.Advances (b b' : Bridge) (mid hi : Nat) : Prop where
  le : mid ≤ hi
  sights : ∀ lo, b.session.Sights lo mid → b'.session.Sights lo hi

section

variable {b b' : Bridge} {thread : ThreadId} {mid hi : Nat}

namespace Bridge

theorem Advances.of_session (h : b'.session = b.session) (hle : mid ≤ hi) : b.Advances b' mid hi :=
  ⟨hle, fun _ hs => h ▸ hs.of_ge hle⟩

theorem advances_mention {n : Notification} (hn : n.Lifts mid hi) :
    b.Advances (b.mention n) mid hi :=
  ⟨hn.le, fun _ hs => hs.notify hn⟩

theorem advances_mention_of_none {n : Notification} (hn : n.scripts = []) :
    b.Advances (b.mention n) mid mid :=
  advances_mention (Notification.lifts_of_none hn mid)

end Bridge

/-- A call that begins has to report what its checkpoint is. -/
theorem Phase.lifts_begin {point : Checkpoint} (h : point.Respects mid) (b : Bridge) :
    b.Advances (Job.begin b point).1 mid mid ∧ (Job.begin b point).2.Lifts mid (point.raise mid) := by
  cases point with
  | started => exact ⟨Bridge.advances_mention_of_none rfl, Nat.le_refl mid⟩
  | ended =>
      simp only [Job.begin, Bridge.engineTerminated]
      split
      · exact ⟨.of_session rfl (Nat.le_refl mid), Nat.le_refl mid⟩
      · exact ⟨Bridge.advances_mention_of_none rfl, Nat.le_refl mid⟩
  | load script depth =>
      refine ⟨.of_session rfl (Nat.le_refl mid), h.le_raise, fun e thread p hd => ?_⟩
      obtain rfl := Option.some.inj (Engine.pause?_of_decide hd)
      refine ⟨h.le_raise, fun other hother => ?_, fun thread other root he => ?_⟩
      · obtain rfl := List.mem_singleton.mp hother
        exact Nat.lt_succ_self _
      · cases he
        exact h
  | line script line depth frames =>
      refine ⟨.of_session rfl (Nat.le_refl mid), h.le_raise, fun e thread p hd => ?_⟩
      obtain ⟨reason, -, rfl⟩ := Option.map_eq_some_iff.mp (Engine.pause?_of_decide hd)
      refine ⟨h.le_raise, fun other hother => ?_, fun thread other root he => by cases he⟩
      obtain ⟨frame, hframe, rfl⟩ := List.mem_map.mp hother
      exact h frame hframe

/-- **A step of a call** reports what there is to report, or less. -/
theorem Phase.Lifts.step {phase phase' : Phase} (h : phase.Lifts mid hi)
    (hstep : phase.advance? b thread = some (b', phase')) :
    ∃ bound, b.Advances b' mid bound ∧ phase'.Lifts bound hi := by
  have hle := Nat.le_refl mid
  cases callStep_of_phase hstep with
  | refuse | pass => exact ⟨mid, .of_session rfl hle, h.1⟩
  | pause hd => exact ⟨mid, .of_session rfl hle, h.2 _ _ _ hd⟩
  | openSlot | takeUp | closed => exact ⟨mid, .of_session rfl hle, h⟩
  -- A report that is refused takes the bound up as well: nobody will ever hear of the script.
  | report => exact ⟨hi, Bridge.advances_mention h, Nat.le_refl hi⟩
  | unreported => exact ⟨hi, ⟨h.le, fun _ hs => hs.notify h⟩, Nat.le_refl hi⟩
  | abandon => exact ⟨mid, ⟨hle, fun lo hs => hs.abandonPause thread⟩, h⟩
  | confirm | excuse => exact ⟨mid, Bridge.advances_mention_of_none rfl, h⟩

/-! ### Jobs -/

/-- The numbers of a job climb, also while it is in a call. -/
def Job.Climbs (j : Job) (bound : Nat) : Prop :=
  match j.phase with
  | none => j.run.Climbs (fun _ _ => True) bound
  | some phase => ∃ point heap resume hi, j.run = .ask point heap resume ∧ phase.Lifts bound hi ∧
      ∀ reply, (resume reply).Climbs (fun _ _ => True) hi

namespace Job

variable {j j' : Job}

theorem Climbs.congr (h : j.Climbs mid) (hphase : j'.phase = j.phase) (hrun : j'.run = j.run) :
    j'.Climbs mid := by
  unfold Climbs at h ⊢
  rwa [hphase, hrun]

/-- **A step of a job** takes the bound up, and its numbers climb from there. -/
theorem Climbs.step (h : j.Climbs mid) (hstep : j.advance? b = some (b', j')) :
    ∃ bound, b.Advances b' mid bound ∧ j'.Climbs bound := by
  obtain ⟨point, heap, resume, hrun, ⟨hphase, rfl, rfl⟩ | ⟨phase, phase', hphase, hadvance, rfl⟩ |
    ⟨reply, hphase, rfl, rfl⟩⟩ := Job.advance?_cases hstep
  · unfold Climbs at h
    rw [hphase, hrun] at h
    obtain ⟨hadvances, hlifts⟩ := Phase.lifts_begin h.1 b
    exact ⟨mid, hadvances, point, heap, resume, _, hrun, hlifts, h.2⟩
  · unfold Climbs at h
    rw [hphase] at h
    obtain ⟨point, heap, resume, hi, hrun, hlifts, hresume⟩ := h
    obtain ⟨bound, hadvances, hlifts⟩ := hlifts.step hadvance
    exact ⟨bound, hadvances, point, heap, resume, hi, hrun, hlifts, hresume⟩
  · unfold Climbs at h
    rw [hphase, hrun] at h
    -- Whatever the call has reported, the run goes on from behind it.
    obtain ⟨_, _, _, hi, hsame, hlifts, hresume⟩ := h
    cases hsame
    exact ⟨hi, .of_session rfl hlifts, hresume reply⟩

/-- To give up reports nothing yet. -/
theorem Climbs.giveUp (h : j.Climbs mid) (hgive : j.giveUp? b = some (b', j')) :
    b'.session = b.session ∧ j'.Climbs mid := by
  obtain ⟨p, milliseconds, hphase, -, -, rfl, rfl⟩ := giveUp?_cases hgive
  unfold Climbs at h
  rw [hphase] at h
  exact ⟨rfl, h⟩

end Job

end

/-! ### The invariant -/

/-- The engine has no breakpoints for scripts from a number on. The marker is for a script with none of
the usual numbers. -/
def Engine.Unaware (e : Engine) (bound : Nat) : Prop :=
  ∀ (id : ScriptId) b, bound ≤ id.number → id.number < 18446744073709551616 → b ∉ e.breakpointsOf id

theorem Engine.Unaware.mono {e : Engine} {lo hi : Nat} (h : e.Unaware lo) (hle : lo ≤ hi) :
    e.Unaware hi :=
  fun id b hid => h id b (Nat.le_trans hle hid)

namespace World

/-- A move that begins nothing, and that is no call that names a script. -/
def Act.isUsual : Act → Bool
  | .begin _ | .call (.setBreakpoint ..) => false
  | .dispatch _ | .step .. | .call _ => true

/-- **The invariant** of a world with one job at most, up to which number everything is foreseen. -/
structure Foresees (w : World) (bound : Nat) : Prop where
  abiding : w.Abiding
  known : w.session.target.state ≠ .terminated →
    ∃ lo, w.session.Sights lo bound ∧ w.engine.Unaware lo
  climbs : ∀ j ∈ w.jobs, j.Climbs bound
  alone : w.jobs.length ≤ 1

section

variable {w w' : World} {bound : Nat}

/-- What a task passes on to the engine is for scripts that were heard of. -/
theorem unaware_effect {s s' : Session} {lo hi : Nat} (hs : s.Sights lo hi) {e : Engine}
    (h : e.Unaware lo) {task : Task} (habides : task.Abides)
    (hpipeline : s.pipeline = task.forwarded?.toList ++ s'.pipeline) :
    (effectOnEngine e task).Unaware lo := by
  intro id b hlo hid
  rw [breakpointsOf_effect e habides hid, mem_revised_of_unrelated]
  · exact h id b hlo hid
  · intro action hmem
    refine absurd (hs.ordered id b action ?_) (Nat.not_lt.mpr hlo)
    rw [hpipeline]
    exact List.mem_append_left _ hmem

/-- **The dispatcher** takes up what is foreseen. -/
theorem Foresees.dispatch (h : w.Foresees bound) {reports : List Report}
    (hd : w.dispatchStep? = some (w', reports)) : w'.Foresees bound := by
  have habiding := h.abiding.moveOrEnd (.ending hd)
  obtain ⟨-, ⟨f, hjobs, hf⟩, hb⟩ := dispatchStep?_cases h.abiding.calm hd
  refine ⟨habiding, fun hlive => ?_, fun j hj => ?_, ?_⟩
  · rcases hb with ⟨task, session, hs, hb⟩ | ⟨session, -, hs, hb⟩
    · have hs' : w'.session = session := congrArg Bridge.session hb
      rw [hs'] at hlive
      obtain ⟨hbefore, hopen, htask⟩ := h.abiding.of_perform hs hlive
      -- A session that goes on does not close its queue, so nothing is lost on the way to the engine.
      have hclose : task ≠ .closeQueue := by
        rintro rfl
        exact htask
      obtain ⟨lo, hsights, hunaware⟩ := h.known hbefore
      rw [hs', show w'.engine = effectOnEngine w.engine task from congrArg Bridge.engine hb]
      exact ⟨lo, hsights.perform hopen h.abiding.plain hclose hs,
        unaware_effect hsights hunaware htask
          (Session.pipeline_perform_plain hopen h.abiding.plain hclose hs)⟩
    · have hs' : w'.session = session := congrArg Bridge.session hb
      have he' : w'.engine = w.engine := (congrArg Bridge.engine hb :)
      rw [hs'] at hlive
      obtain ⟨hbefore, hidle, e, rest, hevents, rfl⟩ := h.abiding.of_take hs hlive
      obtain ⟨lo, hsights, hunaware⟩ := h.known hbefore
      rw [hs', he']
      cases e with
      | notification n =>
          obtain ⟨mid, hn, hafter⟩ := hsights.report h.abiding.exact h.abiding.filed hidle hevents
          exact ⟨mid, hafter, hunaware.mono hn.le⟩
      | command c => exact ⟨lo, hsights.command h.abiding.exact hidle hevents, hunaware⟩
  · rw [hjobs] at hj
    obtain ⟨k, hk, rfl⟩ := List.mem_map.mp hj
    obtain ⟨-, hphase, hrun⟩ := hf k
    exact (h.climbs k hk).congr hphase hrun
  · rw [hjobs, List.length_map]
    exact h.alone

/-- **A call** that names no script asks for nothing else. -/
theorem Foresees.call (h : w.Foresees bound) {c : ControlCall} (hcancel : c ≠ .cancel)
    (hset : ∀ script b, c ≠ .setBreakpoint script b) :
    (w.withSession (c.run w.session)).Foresees bound := by
  refine ⟨h.abiding.moveOrEnd (.move (.call w c hcancel)), fun hlive => ?_, h.climbs, h.alone⟩
  have hstate := (w.session.rereads_call c).state
  obtain ⟨lo, hsights, hunaware⟩ := h.known (fun hover => hlive (hstate.trans hover))
  exact ⟨lo, hsights.call h.abiding.exact hcancel hset, hunaware⟩

/-- The only job makes a step, which may report something. -/
theorem Foresees.advanced (h : w.Foresees bound) {b : Bridge} {before after : List Job} {j j' : Job}
    (hjobs : w.jobs = before ++ j :: after) (habiding : (w.advanced b before j' after).Abiding)
    {hi : Nat} (hadvances : w.bridge.Advances b bound hi) (htarget : b.session.target = w.session.target)
    (hbreakpoints : b.engine.breakpoints = w.engine.breakpoints) (hclimbs : j'.Climbs hi) :
    (w.advanced b before j' after).Foresees hi := by
  have hb := bridge_advanced w b before j' after
  have hs : (w.advanced b before j' after).session = b.session := congrArg Bridge.session hb
  have he : (w.advanced b before j' after).engine = b.engine := congrArg Bridge.engine hb
  -- Another job would go on from numbers that this one has passed by now.
  obtain ⟨rfl, rfl⟩ : before = [] ∧ after = [] := by
    have halone := h.alone
    rw [hjobs, List.length_append, List.length_cons] at halone
    exact ⟨List.length_eq_zero_iff.mp (by omega), List.length_eq_zero_iff.mp (by omega)⟩
  refine ⟨habiding, fun hlive => ?_, fun k hk => ?_, ?_⟩
  · rw [hs, htarget] at hlive
    obtain ⟨lo, hsights, hunaware⟩ := h.known hlive
    rw [hs, he]
    refine ⟨lo, hadvances.sights lo hsights, fun id d => ?_⟩
    rw [Engine.breakpointsOf, hbreakpoints]
    exact hunaware id d
  · obtain ⟨rfl, -⟩ := (mem_jobs_advanced.mp hk).resolve_left (List.not_mem_nil)
    exact hclimbs
  · rw [jobs_advanced]
    split
    · exact Nat.zero_le 1
    · exact Nat.le_refl 1

/-- **Every usual move keeps the invariant**, with a higher number perhaps. -/
theorem Foresees.moveOrEnd (h : w.Foresees bound) {act : Act} (hm : MoveOrEnd w act w')
    (hact : act.isUsual = true) : ∃ bound, w'.Foresees bound := by
  have habiding := h.abiding.moveOrEnd hm
  cases hm with
  | ending hd => exact ⟨bound, h.dispatch hd⟩
  | move hm =>
      cases hm with
      | dispatch hd => exact ⟨bound, h.dispatch hd⟩
      | @step b before after j j' hjobs hstep =>
          have hcall := (callStep_of_job hstep).1
          obtain ⟨hi, hadvances, hclimbs⟩ := (h.climbs j (by rw [hjobs]; simp)).step hstep
          exact ⟨hi, h.advanced hjobs habiding hadvances (reported_of_callStep hcall).1.target
            (breakpoints_callStep hcall) hclimbs⟩
      | @giveUp b before after j j' hjobs hgive =>
          obtain ⟨hsession, hclimbs⟩ := (h.climbs j (by rw [hjobs]; simp)).giveUp hgive
          have hbreakpoints : b.engine.breakpoints = w.engine.breakpoints := by
            obtain ⟨-, -, -, -, -, rfl, -⟩ := giveUp?_cases hgive
            rfl
          exact ⟨bound, h.advanced hjobs habiding (.of_session hsession (Nat.le_refl bound))
            (congrArg Session.target hsession) hbreakpoints hclimbs⟩
      | begin => cases hact
      | call c hcancel =>
          refine ⟨bound, h.call hcancel ?_⟩
          rintro script b rfl
          cases hact

end

/-! ### One interpreter -/

theorem foresees_create {settings : DebuggerSettings} (hplain : settings.dedupeQueuedEvents = false)
    (bound : Nat) : (create settings true).Foresees bound where
  abiding := abiding_create hplain
  known _ := by
    refine ⟨0, ⟨fun id frame hframe => ?_, fun id b action hmem => ?_, Nat.zero_le bound⟩,
      fun id b _ _ hb => ?_⟩
    · cases hframe
    · cases hmem
    · cases hb
  climbs _ hj := absurd hj List.not_mem_nil
  alone := Nat.zero_le 1

theorem Foresees.addBreakpoints {w : World} {bound : Nat} (h : w.Foresees bound)
    (breakpoints : List Breakpoint) :
    (w.withSession (w.session.addBreakpoints breakpoints)).Foresees bound := by
  induction breakpoints generalizing w with
  | nil => exact h
  | cons b rest ih =>
      have hcancel : ControlCall.addBreakpoint b ≠ .cancel := nofun
      exact ih (h.call hcancel nofun)

/-- A job that begins where there is none. -/
theorem Foresees.begin {w : World} {bound : Nat} (h : w.Foresees bound) (hnone : w.jobs = [])
    {j : Job} (hphase : j.phase = none) (hj : j.Climbs bound) : (w.begin j).Foresees bound := by
  have hb := bridge_begin w j
  have hs : (w.begin j).session = w.session := congrArg Bridge.session hb
  have he : (w.begin j).engine = w.engine := congrArg Bridge.engine hb
  have hjobs : (w.begin j).jobs = [j] := by rw [jobs_begin, hnone, List.nil_append]
  have hnew : j.thread ∉ w.jobs.map Job.thread := by
    rw [hnone]
    exact List.not_mem_nil
  refine ⟨h.abiding.moveOrEnd (.move (.begin w.nextHeap hphase hnew)), ?_, ?_, ?_⟩
  · rw [hs, he]
    exact h.known
  · rw [hjobs]
    exact List.forall_mem_singleton.mpr hj
  · rw [hjobs]
    exact Nat.le_refl 1

/-- **A run of an interpreter** begins with a root script that is new to it. -/
theorem foresees_aboutToRun {settings : DebuggerSettings} (hplain : settings.dedupeQueuedEvents = false)
    (breakpoints : List Breakpoint) (thread : ThreadId) {i : Interpreter} {script : Script}
    (hi : i.Below script.id.number) (hnext : script.id.number < i.nextScript) :
    (aboutToRun settings breakpoints thread i script).Foresees script.id.number := by
  have hrun : (Job.ofScript thread i script).Climbs script.id.number :=
    Run.climbs_bind ((Language.climbs_run hi hnext).mono fun _ _ _ => trivial)
  exact ((foresees_create hplain script.id.number).addBreakpoints breakpoints).begin rfl rfl hrun

/-- Everyone goes on, and nobody else begins. Breakpoints are set and taken away for resources only. -/
def Proceeds (w : World) (act : Act) (w' : World) : Prop :=
  MoveOrEnd w act w' ∧ act.isUsual = true

theorem foresees_of_execution {settings : DebuggerSettings}
    (hplain : settings.dedupeQueuedEvents = false) {breakpoints : List Breakpoint} {thread : ThreadId}
    {i : Interpreter} {script : Script} (hi : i.Below script.id.number)
    (hnext : script.id.number < i.nextScript) {trace : List Act} {w : World}
    (h : Execution Proceeds (aboutToRun settings breakpoints thread i script) trace w) :
    ∃ bound, w.Foresees bound :=
  h.state_invariant (P := fun w => ∃ bound, w.Foresees bound)
    ⟨_, foresees_aboutToRun hplain breakpoints thread hi hnext⟩
    fun ⟨_, ih⟩ hstep => ih.moveOrEnd hstep.1 hstep.2

/-- The breakpoints that a script will have once every command on its way has arrived. -/
def prospect (w : World) (id : ScriptId) : List Breakpoint :=
  revised id w.session.pipeline (w.engine.breakpointsOf id)

/-- **A script is new when its announcement is dispatched.** -/
theorem Foresees.not_mem_prospect {w : World} {bound : Nat} (h : w.Foresees bound)
    (hlive : w.session.target.state ≠ .terminated) {thread : ThreadId} {script : Snapshot} {root : Bool}
    {rest : List Event}
    (hevents : w.session.queue.events = .notification (.scriptReady thread script root) :: rest)
    (hid : script.id.number < 18446744073709551616) (b : Breakpoint) : b ∉ w.prospect script.id := by
  obtain ⟨lo, hsights, hunaware⟩ := h.known hlive
  have hcoming := hsights.coming
  rw [hevents, reportsOf_cons_notification] at hcoming
  obtain ⟨mid, hn, -⟩ := hcoming
  have hlo : lo ≤ script.id.number := hn.new thread script root rfl
  unfold prospect
  rw [mem_revised_of_unrelated]
  · exact hunaware script.id b hlo hid
  · exact fun action hmem => absurd (hsights.ordered _ _ _ hmem) (Nat.not_lt.mpr hlo)

end World

end Pausepoint
