import Pausepoint.Proofs.Language.Sites
import Pausepoint.Proofs.World.Wakeup
import Pausepoint.Proofs.World.Whereabouts

/-!
# Pausepoint.Proofs.World.Showing

What a line stop shows is what the interpreter is doing.

`line_stop_shows_interpreter` is the main result: while the call of an interpreter is blocked at a line and
its thread is seen to be suspended, the frames of the thread are the activations of the interpreter,
innermost first, each of them at the line of the statement that it runs, and reading the variables of a
frame gives what the scope of its activation holds, whatever was read before.

Three things meet here: what stands at a line of a run (`Language.stands_run`), what a stop displays
(`Target.Displays`), and that the stop that is displayed is the one that the call reported (`Whereabouts`).
`World.Hosted` packages them with the scopes of every job, which nobody else writes to.
-/

namespace Pausepoint

open Pausepoint.Language

/-! ### Jobs and their checkpoints -/

/-- What the phase of a call says of the checkpoint that it is at. -/
def Language.Checkpoint.Suits (point : Checkpoint) (thread : ThreadId) : Phase → Prop
  | .entering r => point.request? = some r
  | .opening p | .reporting p | .waiting p =>
      ∃ (e : Engine) (r : Request), point.request? = some r ∧ e.pause? thread r = some p
  | .confirming _ | .abandoning _ | .excusing _ | .returned _ => True

/-- A pause that shows frames is one at a line, and shows the frames of the line. -/
theorem Language.Checkpoint.Suits.line {point : Checkpoint} {thread : ThreadId} {p : Pause}
    {frames : List Frame} {reason : Reason} (h : point.Suits thread (.waiting p))
    (hreport : p.report = .suspended thread frames reason) :
    ∃ script line depth, point = .line script line depth frames := by
  obtain ⟨e, r, hrequest, hpause⟩ := h
  cases r with
  | load script depth =>
      cases hpause
      cases hreport
  | line script line depth shown =>
      obtain ⟨reason', -, rfl⟩ := Option.map_eq_some_iff.mp hpause
      cases hreport
      cases point with
      | started | load | ended => cases hrequest
      | line =>
          cases hrequest
          exact ⟨_, _, _, rfl⟩

namespace Job

/-- A job that is in a call is at the checkpoint that the call is. -/
def Aligned (j : Job) : Prop :=
  ∀ phase, j.phase = some phase →
    ∃ point heap resume, j.run = .ask point heap resume ∧ point.Suits j.thread phase

theorem aligned_of_advance {b b' : Bridge} {j j' : Job} (h : j.Aligned)
    (hstep : j.advance? b = some (b', j')) : j'.Aligned := by
  obtain ⟨point, heap, resume, hrun, ⟨hphase, -, rfl⟩ | ⟨phase, phase', hphase, hadvance, rfl⟩ |
    ⟨reply, -, -, rfl⟩⟩ := advance?_cases hstep
  · intro phase he
    obtain rfl := Option.some.inj he
    refine ⟨point, heap, resume, hrun, ?_⟩
    cases point <;> trivial
  · intro next he
    obtain rfl := Option.some.inj he
    obtain ⟨point', heap', resume', hrun', hsuits⟩ := h phase hphase
    obtain ⟨rfl, rfl, rfl⟩ := Run.ask.inj (hrun'.symm.trans hrun)
    refine ⟨point', heap', resume', hrun, ?_⟩
    have hcall := callStep_of_phase hadvance
    generalize hbefore : some phase = before, hafter : some phase' = after at hcall
    cases hcall with
    | announce | silent | enter => cases hbefore
    | pause hd =>
        cases hbefore
        cases hafter
        exact ⟨_, _, hsuits, Engine.pause?_of_decide hd⟩
    | openSlot | report =>
        cases hbefore
        cases hafter
        exact hsuits
    | refuse | pass | unreported | takeUp | closed | confirm | abandon | excuse =>
        cases hafter
        trivial
    | leave => cases hafter
  · intro phase he
    cases he

/-- What a job is about to report is a pause of its thread. -/
theorem Aligned.shaped {j : Job} (h : j.Aligned) {p : Pause} (hphase : j.phase = some (.reporting p)) :
    p.ShapedFor j.thread := by
  obtain ⟨-, -, -, -, e, r, -, hpause⟩ := h _ hphase
  exact Engine.shaped_of_pause hpause

/-- A job is a run that stands at its lines, up to the outcome. -/
def Scripted (number : Nat) (j : Job) : Prop :=
  ∃ (root : Snapshot) (r : Run Outcome), j.run = r.bind (fun outcome => .done (.script outcome)) ∧
    r.Always (Run.Stands root number)

theorem scripted_ofScript (thread : ThreadId) {i : Interpreter} (h : i.AtRest) (script : Script) :
    (ofScript thread i script).Scripted i.heapNumber :=
  ⟨script.snapshot, i.run script, rfl, stands_run h script⟩

theorem scripted_of_advance {b b' : Bridge} {j j' : Job} {number : Nat} (h : j.Scripted number)
    (hstep : j.advance? b = some (b', j')) : j'.Scripted number := by
  obtain ⟨root, r, hbind, halways⟩ := h
  obtain ⟨point, heap, resume, hrun, ⟨-, -, rfl⟩ | ⟨phase, phase', -, -, rfl⟩ | ⟨reply, -, -, rfl⟩⟩ :=
    advance?_cases hstep
  · exact ⟨root, r, hbind, halways⟩
  · exact ⟨root, r, hbind, halways⟩
  · rw [hbind] at hrun
    cases r with
    | done outcome => cases hrun
    | ask point' heap' resume' =>
        cases hrun
        exact ⟨root, resume' reply, rfl, halways.2 reply⟩

/-- What the scopes of a job hold. -/
def bindings (j : Job) : ScopeId → Entries :=
  match j.run with
  | .ask _ heap _ => fun scope => heap.bindings scope.index
  | .done _ => fun _ => []

/-- **At a line** a job stands at a site, whose frames and scopes are those that are shown. -/
theorem exists_site {j : Job} {number : Nat} (h : j.Scripted number) (haligned : j.Aligned) {p : Pause}
    (hphase : j.phase = some (.waiting p)) {frames : List Frame} {reason : Reason}
    (hreport : p.report = .suspended j.thread frames reason) :
    ∃ (root : Snapshot) (i : Interpreter) (site : Site) (outer : List Site) (r : Run Outcome),
      j.run = r.bind (fun outcome => .done (.script outcome)) ∧ i.heapNumber = number ∧ i.StandsAt root site outer r ∧ frames = i.frames ∧
      j.bindings = fun scope => i.heap.bindings scope.index := by
  obtain ⟨point, heap, resume, hrun, hsuits⟩ := haligned _ hphase
  obtain ⟨script, line, depth, rfl⟩ := hsuits.line hreport
  obtain ⟨root, r, hbind, halways⟩ := h
  cases r with
  | done outcome =>
      rw [hbind] at hrun
      cases hrun
  | ask point' heap' resume' =>
      obtain ⟨hpoint, -⟩ := Run.ask.inj (hbind.symm.trans hrun)
      subst hpoint
      obtain ⟨i, site, outer, hnumber, hstands⟩ := halways.1.line _ _ _ _ _ _ rfl
      obtain ⟨hline, hheap, -⟩ := Run.ask.inj hstands.run
      refine ⟨root, i, site, outer, _, hbind, hnumber, hstands, (Checkpoint.line.inj hline).2.2.2, ?_⟩
      unfold bindings
      rw [hbind, ← hheap]
      rfl

end Job

namespace World

/-! ### Scopes of jobs -/

/-- A job keeps scopes of its own only. -/
theorem bindings_keepScopes_other (w : World) {j : Job} (scope : ScopeId) (h : j.heap ≠ some scope.heap) :
    (w.keepScopes j).bindings scope = w.bindings scope := by
  unfold keepScopes
  split
  · next number heap hscopes =>
      have hne : scope.heap ≠ number := by
        rintro rfl
        refine h ?_
        unfold Job.scopes? at hscopes
        split at hscopes
        · cases hscopes
          assumption
        · cases hscopes
          assumption
        · cases hscopes
      unfold bindings
      rw [Table.get?_insert, if_neg hne]
  · rfl

theorem bindings_keepScopes_self (w : World) {j : Job} {number : Nat} (h : j.heap = some number)
    (hresult : j.result? = none) (index : Nat) :
    (w.keepScopes j).bindings ⟨number, index⟩ = j.bindings ⟨number, index⟩ := by
  cases hrun : j.run with
  | done result => simp [Job.result?, hrun] at hresult
  | ask point heap resume =>
      have hscopes : j.scopes? = some (number, heap) := by simp [Job.scopes?, h, hrun]
      simp [keepScopes, hscopes, bindings, Job.bindings, hrun]

/-- No two jobs share a heap. -/
theorem heap_ne_of_nodup {before after : List Job} {j k : Job}
    (h : ((before ++ j :: after).filterMap Job.heap).Nodup) (hk : k ∈ before ++ after) {number : Nat}
    (hnumber : k.heap = some number) : j.heap ≠ some number := by
  intro hj
  rw [List.filterMap_append, List.filterMap_cons_some hj, List.nodup_middle, List.nodup_cons,
    ← List.filterMap_append] at h
  exact h.1 (List.mem_filterMap.mpr ⟨k, hk, hnumber⟩)

/-! ### Runs of interpreters -/

/-- One step of anyone, where a thread is that of interpreters: of all reports about it, none comes from
elsewhere. A script may begin on any interpreter at rest, and clients read what the scopes hold. -/
inductive UnforgedStep (thread : ThreadId) : World → Option Act → World → Prop
  | dispatch {w w' : World} {reports : List Report} (h : w.dispatchStep? = some (w', reports)) :
      UnforgedStep thread w (some (.dispatch w.session.worker.agenda.head?)) w'
  | step {w : World} {b : Bridge} {before after : List Job} {j j' : Job}
      (hjobs : w.jobs = before ++ j :: after) (h : j.advance? w.bridge = some (b, j')) :
      UnforgedStep thread w (some (.step j.thread j.phase j'.phase)) (w.advanced b before j' after)
  | giveUp {w : World} {b : Bridge} {before after : List Job} {j j' : Job}
      (hjobs : w.jobs = before ++ j :: after) (h : j.giveUp? w.bridge = some (b, j')) :
      UnforgedStep thread w (some (.step j.thread j.phase j'.phase)) (w.advanced b before j' after)
  | beginScript {w : World} {i : Interpreter} (id : ThreadId) (script : Script) (hrest : i.AtRest)
      (hnew : id ∉ w.jobs.map Job.thread) : UnforgedStep thread w (some (.begin id)) (w.beginScript id i script)
  | beginCall {w : World} (id : ThreadId) (point : Checkpoint) (hnew : id ∉ w.jobs.map Job.thread) :
      UnforgedStep thread w (some (.begin id)) (w.begin (.ofCheckpoint id point))
  | call {w : World} {c : ControlCall}
      (hreads : ∀ bindings id slot, c = .readVariables bindings id slot → bindings = w.bindings) :
      UnforgedStep thread w (some (.call c)) (w.withSession (c.run w.session))
  | report {w : World} {n : Notification} (hn : n.thread? ≠ some thread) :
      UnforgedStep thread w none (w.withSession (w.session.notify n).2)
  | abandonPause {w : World} {id : ThreadId} (hne : id ≠ thread) :
      UnforgedStep thread w none (w.withSession (w.session.abandonPause id).2)
  | interrupt (w : World) (traps : List Trap) (held : Bool) : UnforgedStep thread w none { w with traps, held }

/-- The steps of dispatcher and jobs are free. -/
theorem unforgedStep_of_anyStep {thread : ThreadId} {w w' : World} {act : Act} (h : AnyStep w (some act) w')
    (hstep : act.IsStep) : UnforgedStep thread w (some act) w' := by
  cases h with
  | dispatch hd => exact .dispatch hd
  | step hjobs hj => exact .step hjobs hj
  | giveUp hjobs hj => exact .giveUp hjobs hj
  | begin | call => exact hstep.elim

/-- What a step that is no step of a job leaves of the jobs and their scopes. -/
structure Retains (w w' : World) : Prop where
  attached : w'.attached = w.attached
  heaps : w'.heaps = w.heaps
  nextHeap : w'.nextHeap = w.nextHeap
  jobs : ∃ f : Job → Job, w'.jobs = w.jobs.map f ∧ ∀ j, f j = j ∨ f j = j.noteStop

theorem Retains.of_same {w w' : World} (ha : w'.attached = w.attached) (hh : w'.heaps = w.heaps)
    (hn : w'.nextHeap = w.nextHeap) (hj : w'.jobs = w.jobs) : w.Retains w' :=
  ⟨ha, hh, hn, id, by rw [hj, List.map_id], fun _ => .inl rfl⟩

theorem Retains.sameCalls {w w' : World} (h : w.Retains w') : SameCalls w.jobs w'.jobs := by
  obtain ⟨f, hf, hsame⟩ := h.jobs
  refine ⟨f, hf, fun j => ?_⟩
  rcases hsame j with he | he <;> rw [he] <;> exact ⟨rfl, rfl, rfl⟩

theorem retains_noteStop (w : World) (task : Task) : w.Retains (w.noteStop task) := by
  unfold noteStop
  split
  · refine ⟨rfl, rfl, rfl, _, rfl, fun j => ?_⟩
    split
    · exact .inr rfl
    · exact .inl rfl
  · exact .of_same rfl rfl rfl rfl

theorem retains_interrupt {w w' : World} (h : w.Retains w') (task : Task) :
    w.Retains (w'.interrupt task) := by
  have hscopes : (w'.interrupt task).heaps = w'.heaps ∧ (w'.interrupt task).nextHeap = w'.nextHeap := by
    unfold interrupt
    split
    · exact ⟨rfl, rfl⟩
    · dsimp only
      split
      · exact ⟨rfl, rfl⟩
      · exact ⟨rfl, rfl⟩
      · split <;> exact ⟨rfl, rfl⟩
  obtain ⟨hattached, hjobs, -⟩ := w'.interrupt_frame task
  exact ⟨hattached.trans h.attached, hscopes.1.trans h.heaps, hscopes.2.trans h.nextHeap, hjobs ▸ h.jobs⟩

/-- Jobs and scopes are no matter of the dispatcher, but for what clients know of stops. -/
theorem retains_dispatchStep? {w w' : World} {reports : List Report}
    (h : w.dispatchStep? = some (w', reports)) : w.Retains w' := by
  unfold dispatchStep? at h
  split at h
  · cases h
  · split at h
    · next task session _ =>
        cases h
        let next : World :=
          { w with bridge := ⟨session, if w.attached then effectOnEngine w.engine task else w.engine⟩ }
        obtain ⟨hattached, hheaps, hnext, hjobs⟩ := next.retains_noteStop task
        exact retains_interrupt (w := w) ⟨hattached, hheaps, hnext, hjobs⟩ task
    · obtain ⟨session, -, hw⟩ := Option.map_eq_some_iff.mp h
      cases hw
      exact .of_same rfl rfl rfl rfl

/-! ### The invariant -/

/-- What holds of a job and its scopes. -/
structure Shelters (w : World) (j : Job) : Prop where
  aligned : j.Aligned
  scripted : ∀ number, j.heap = some number → j.Scripted number
  numbered : ∀ number, j.heap = some number → number < w.nextHeap
  scopes : ∀ number, j.heap = some number → ∀ index, w.bindings ⟨number, index⟩ = j.bindings ⟨number, index⟩

theorem Shelters.of_retains {w w' : World} {j : Job} (h : w.Shelters j) (hr : w.Retains w') :
    w'.Shelters j := by
  have hbindings (scope : ScopeId) : w'.bindings scope = w.bindings scope := by
    unfold bindings
    rw [hr.heaps]
  refine ⟨h.aligned, h.scripted, fun number hnumber => ?_, fun number hnumber index => ?_⟩
  · rw [hr.nextHeap]
    exact h.numbered number hnumber
  · rw [hbindings]
    exact h.scopes number hnumber index

/-- The frames of a line are read from the scopes of the job. -/
theorem Shelters.bindings_eq {w : World} {j : Job} (h : w.Shelters j) {number : Nat}
    (hnumber : j.heap = some number) {p : Pause} (hphase : j.phase = some (.waiting p)) {frames : List Frame}
    {reason : Reason} (hreport : p.report = .suspended j.thread frames reason) :
    ∀ frame ∈ frames, ∀ scope, frame.scope = some scope → w.bindings scope = j.bindings scope := by
  obtain ⟨root, i, site, outer, r, -, hi, -, rfl, -⟩ :=
    Job.exists_site (h.scripted number hnumber) h.aligned hphase hreport
  intro frame hframe scope hscope
  obtain ⟨a, -, rfl⟩ := List.mem_map.mp hframe
  obtain rfl : (⟨i.heapNumber, a.scope⟩ : ScopeId) = scope :=
    Option.some.inj ((a.scope_frame i.heapNumber).symm.trans hscope)
  rw [hi]
  exact h.scopes number hnumber a.scope

/-- If the call of an interpreter waits at a line, its frames are displayed once its thread is seen to be
suspended. -/
def Displayed (t : Target) (j : Job) : Prop :=
  ∀ number, j.heap = some number → ∀ p frames reason, j.phase = some (.waiting p) →
    p.report = .suspended j.thread frames reason → t.Displays j.thread frames j.bindings

/-- **The invariant** of every run in which a thread is that of interpreters. -/
structure Hosted (settings : DebuggerSettings) (thread : ThreadId) (w : World) : Prop where
  attached : w.attached = true
  untimed : w.engine.resumeTimeout = none
  distinct : (w.jobs.map Job.thread).Nodup
  /-- No two jobs share their scopes. -/
  heaps : (w.jobs.filterMap Job.heap).Nodup
  tended : w.session.Tended settings.targetOptions thread
  whereabouts : Whereabouts thread w.session (w.engine.slots.get? thread) (w.engine.closed = none)
    (phaseOf w.jobs thread)
  shelters : ∀ j ∈ w.jobs, w.Shelters j
  displayed : ∀ j ∈ w.jobs, j.thread = thread → Displayed w.session.target j

variable {settings : DebuggerSettings} {thread : ThreadId} {w w' : World}

theorem hosted_create (ht : settings.resumeTimeout = none) (thread : ThreadId) :
    Hosted settings thread (create settings true) where
  attached := rfl
  untimed := ht
  distinct := List.nodup_nil
  heaps := List.nodup_nil
  tended := Session.tended_create settings thread
  whereabouts _ := ⟨Session.clear_create settings thread, rfl⟩
  shelters _ hj := absurd hj List.not_mem_nil
  displayed _ hj := absurd hj List.not_mem_nil

namespace Hosted

/-- Whoever leaves the jobs and their scopes alone. -/
theorem of_retains (h : Hosted settings thread w) (hr : w.Retains w')
    (huntimed : w'.engine.resumeTimeout = none) (htended : w'.session.Tended settings.targetOptions thread)
    (hwhere : Whereabouts thread w'.session (w'.engine.slots.get? thread) (w'.engine.closed = none)
      (phaseOf w.jobs thread))
    (hdisplayed : ∀ j ∈ w.jobs, j.thread = thread → Displayed w'.session.target j) :
    Hosted settings thread w' := by
  have hsame := hr.sameCalls
  obtain ⟨f, hjobs, hf⟩ := hr.jobs
  have hmem {P : Job → Prop} (hnote : ∀ j, P j → P j.noteStop) (hall : ∀ j ∈ w.jobs, P j) :
      ∀ j ∈ w'.jobs, P j := by
    intro j hj
    rw [hjobs] at hj
    obtain ⟨k, hk, rfl⟩ := List.mem_map.mp hj
    rcases hf k with he | he <;> rw [he]
    · exact hall k hk
    · exact hnote k (hall k hk)
  refine ⟨hr.attached.trans h.attached, huntimed, hsame.threads ▸ h.distinct, ?_, htended, ?_, ?_, ?_⟩
  · have hheap : Job.heap ∘ f = Job.heap := funext fun j => by
      rcases hf j with he | he <;> rw [Function.comp_apply, he]
      rfl
    rw [hjobs, List.filterMap_map, hheap]
    exact h.heaps
  · rw [hsame.phaseOf]
    exact hwhere
  · exact hmem (P := w'.Shelters) (fun j hj => ⟨hj.aligned, hj.scripted, hj.numbered, hj.scopes⟩)
      fun j hj => (h.shelters j hj).of_retains hr
  · exact hmem (P := fun j => j.thread = thread → Displayed w'.session.target j) (fun j hj => hj) hdisplayed

/-- What was displayed is, wherever a target spares the thread. -/
theorem displayed_of_spares (h : Hosted settings thread w) {t : Target}
    (hspares : w.session.target.Spares t thread) : ∀ j ∈ w.jobs, j.thread = thread → Displayed t j := by
  rintro j hj rfl number hnumber p frames reason hphase hreport
  exact hspares.displays (h.displayed j hj rfl number hnumber p frames reason hphase hreport)

theorem dispatch (h : Hosted settings thread w) {reports : List Report}
    (hd : w.dispatchStep? = some (w', reports)) : Hosted settings thread w' := by
  have hr := retains_dispatchStep? hd
  obtain ⟨-, -, ⟨task, session, hperform, hsession, hengine⟩ | ⟨-, htake, hengine⟩⟩ :=
    dispatchStep?_frame hd
  · rw [if_pos h.attached] at hengine
    have hwhere := h.whereabouts.perform h.tended hperform
    have htended := h.tended.perform hperform
    have htarget : session.target = w.session.target := Session.target_perform hperform
    -- Client code may fail in the task, which ends every thread and shows nothing new.
    rcases hsession with hs | ⟨-, message, hs⟩
    · refine h.of_retains hr ?_ ?_ ?_ (h.displayed_of_spares ?_)
      · rw [hengine, Engine.timeout_effect]
        exact h.untimed
      · rw [hs]
        exact htended
      · rw [hs, hengine]
        exact hwhere
      · rw [hs, htarget]
        exact .refl _ _
    · refine h.of_retains hr ?_ ?_ ?_ (h.displayed_of_spares ?_)
      · rw [hengine, Engine.timeout_effect]
        exact h.untimed
      · rw [hs]
        exact htended.fail message
      · rw [hs, hengine]
        exact hwhere.eases (session.eases_fail message thread) id
      · obtain ⟨fault, hfault⟩ := session.target_fail message
        rw [hs, hfault, htarget]
        exact w.session.target.spares_terminate fault thread
  · refine h.of_retains hr ?_ (h.tended.take htake) ?_ ?_
    · rw [hengine]
      exact h.untimed
    · rw [hengine]
      exact h.whereabouts.take h.tended htake
    · rintro j hj rfl number hnumber p frames reason hphase hreport
      have hwhere := h.whereabouts
      rw [phaseOf_of_mem h.distinct hj, hphase] at hwhere
      exact hwhere.displays_take h.tended htake hreport
        (h.displayed j hj rfl number hnumber p frames reason hphase hreport)

/-- A job makes a step. -/
theorem advanced (h : Hosted settings thread w) {b : Bridge} {before after : List Job} {j j' : Job}
    (hjobs : w.jobs = before ++ j :: after) (hstep : j.advance? w.bridge = some (b, j')) :
    Hosted settings thread (w.advanced b before j' after) := by
  obtain ⟨hcall, hthread⟩ := callStep_of_job hstep
  have hmem : j ∈ w.jobs := by simp [hjobs]
  have hshelters := h.shelters j hmem
  have hheap : j'.heap = j.heap := Job.heap_of_advance hstep
  have hphase : phaseOf w.jobs j.thread = j.phase := phaseOf_of_mem h.distinct hmem
  have hhears := hearsOf_callStep hcall fun p hp => hshelters.aligned.shaped hp
  have hbridge : (w.advanced b before j' after).bridge = b := bridge_advanced ..
  have hsession : (w.advanced b before j' after).session = b.session := congrArg Bridge.session hbridge
  have hengine : (w.advanced b before j' after).engine = b.engine := congrArg Bridge.engine hbridge
  have htarget : b.session.target = w.session.target := hhears.target
  have hnext : (w.advanced b before j' after).nextHeap = w.nextHeap := by
    unfold World.advanced keepScopes
    split <;> rfl
  refine ⟨?_, ?_, nodup_advanced hjobs hthread h.distinct, ?_, ?_, ?_, fun k hk => ?_, fun k hk hkt => ?_⟩
  · unfold World.advanced keepScopes
    split <;> exact h.attached
  · rw [hengine, hcall.timeout]
    exact h.untimed
  -- A job that is over takes its heap out of the list, and no job gets another one.
  · have hheaps := h.heaps
    rw [hjobs, List.filterMap_append, List.filterMap_cons] at hheaps
    rw [jobs_advanced]
    split
    · rw [List.filterMap_append]
      refine hheaps.sublist (List.Sublist.append (List.Sublist.refl _) ?_)
      cases j.heap with
      | none => exact List.Sublist.refl _
      | some number => exact List.sublist_cons_self _ _
    · rw [List.filterMap_append, List.filterMap_cons, hheap]
      exact hheaps
  · rw [hsession]
    exact hhears.tended h.tended
  · rw [hsession, hengine, phaseOf_advanced hjobs hthread (phase_of_result hstep) h.distinct]
    split
    · next he =>
        subst he
        have hwhere := h.whereabouts
        rw [hphase] at hwhere
        exact hwhere.callStep hcall
    -- Another thread's call leaves the slot alone, and only eases what is queued.
    · next hne =>
        rw [slots_step hcall hne, hcall.frame.2]
        exact h.whereabouts.eases (hhears.eases hne) id
  · rcases mem_jobs_advanced.mp hk with hk | ⟨rfl, hresult⟩
    · have hold := h.shelters k (mem_jobs_of_mem_others hjobs hk)
      refine ⟨hold.aligned, hold.scripted, fun number hnumber => hnext ▸ hold.numbered number hnumber,
        fun number hnumber index => ?_⟩
      have hne : j'.heap ≠ some number := hheap ▸ heap_ne_of_nodup (hjobs ▸ h.heaps) hk hnumber
      exact (bindings_keepScopes_other { w with bridge := b } ⟨number, index⟩ hne).trans
        (hold.scopes number hnumber index)
    · refine ⟨Job.aligned_of_advance hshelters.aligned hstep, fun number hnumber => ?_,
        fun number hnumber => ?_, fun number hnumber index => ?_⟩
      · exact Job.scripted_of_advance (hshelters.scripted number (hheap ▸ hnumber)) hstep
      · rw [hnext]
        exact hshelters.numbered number (hheap ▸ hnumber)
      · exact bindings_keepScopes_self { w with bridge := b } hnumber hresult index
  · rw [hsession, htarget]
    rcases mem_jobs_advanced.mp hk with hk | ⟨rfl, -⟩
    · exact h.displayed k (mem_jobs_of_mem_others hjobs hk) hkt
    · -- A call waits at a line only after it has reported it, and then nothing is displayed yet.
      intro number _ p frames reason hwaiting hreport
      have hwhere := h.whereabouts
      rw [← hkt, hthread, hphase] at hwhere
      rw [hthread]
      rw [hwaiting] at hcall
      generalize hbefore : j.phase = phase, hafter : some (Phase.waiting p) = phase' at hcall hwhere
      cases hcall with
      | report => exact .of_not_suspended hwhere.2.1.running _ _
      | announce | silent | enter | refuse | pass | pause | openSlot | unreported | takeUp | closed | confirm
      | abandon | excuse | leave => cases hafter

/-- A job begins, on a heap that nobody has used. -/
theorem begin (h : Hosted settings thread w) {j : Job} (nextHeap : Nat) (hphase : j.phase = none)
    (hresult : j.result? = none) (hnew : j.thread ∉ w.jobs.map Job.thread) (hle : w.nextHeap ≤ nextHeap)
    (hheap : ∀ number, j.heap = some number → w.nextHeap ≤ number ∧ number < nextHeap ∧ j.Scripted number) :
    Hosted settings thread ({ w with nextHeap }.begin j) := by
  have hbridge : ({ w with nextHeap }.begin j).bridge = w.bridge := bridge_begin _ j
  have hsession : ({ w with nextHeap }.begin j).session = w.session := congrArg Bridge.session hbridge
  have hengine : ({ w with nextHeap }.begin j).engine = w.engine := congrArg Bridge.engine hbridge
  have hjobs : ({ w with nextHeap }.begin j).jobs = w.jobs ++ [j] := jobs_begin _ j
  have hnext : ({ w with nextHeap }.begin j).nextHeap = nextHeap := by
    unfold World.begin keepScopes
    split <;> rfl
  refine ⟨?_, ?_, ?_, ?_, ?_, ?_, fun k hk => ?_, fun k hk hkt => ?_⟩
  · unfold World.begin keepScopes
    split <;> exact h.attached
  · rw [hengine]
    exact h.untimed
  · exact nodup_begin hnew h.distinct
  · rw [hjobs, List.filterMap_append, List.nodup_append']
    refine ⟨h.heaps, ?_, fun number hold hnumber => ?_⟩
    · cases hj : j.heap <;> simp [hj]
    · obtain ⟨k, hk, hkn⟩ := List.mem_filterMap.mp hold
      obtain ⟨k', hk', hjn⟩ := List.mem_filterMap.mp hnumber
      obtain rfl := List.mem_singleton.mp hk'
      -- The heap is a new one: every other has a smaller number.
      have hlt := (h.shelters k hk).numbered number hkn
      have hge := (hheap number hjn).1
      omega
  · rw [hsession]
    exact h.tended
  · rw [hsession, hengine, hjobs, phaseOf_snoc hphase hnew]
    exact h.whereabouts
  · rw [hjobs] at hk
    rcases List.mem_append.mp hk with hk | hk
    · have hold := h.shelters k hk
      refine ⟨hold.aligned, hold.scripted, fun number hnumber => ?_, fun number hnumber index => ?_⟩
      · rw [hnext]
        exact Nat.lt_of_lt_of_le (hold.numbered number hnumber) hle
      · have hne : j.heap ≠ some number := fun hj =>
          absurd (hold.numbered number hnumber) (Nat.not_lt.mpr (hheap number hj).1)
        exact (bindings_keepScopes_other _ ⟨number, index⟩ hne).trans
          (hold.scopes number hnumber index)
    · obtain rfl := List.mem_singleton.mp hk
      refine ⟨fun phase he => ?_, fun number hnumber => (hheap number hnumber).2.2,
        fun number hnumber => by rw [hnext]; exact (hheap number hnumber).2.1,
        fun number hnumber index => bindings_keepScopes_self _ hnumber hresult index⟩
      rw [hphase] at he
      cases he
  · rw [hsession]
    rw [hjobs] at hk
    rcases List.mem_append.mp hk with hk | hk
    · exact h.displayed k hk hkt
    · obtain rfl := List.mem_singleton.mp hk
      intro number _ p frames reason hwaiting
      rw [hphase] at hwaiting
      cases hwaiting

/-- A client reads a frame. What a stop displays of a job is read from the scopes of the job. -/
theorem read (h : Hosted settings thread w) (id : ThreadId) (slot : Nat) :
    Hosted settings thread (w.withSession (w.session.readVariables w.bindings id slot).2) := by
  have hcommanded := w.session.commanded_readVariables w.bindings id slot
  have hrereads := w.session.rereads_readVariables w.bindings id slot
  have hoptions : (w.session.readVariables w.bindings id slot).2.target.options =
      w.session.target.options := by
    unfold Session.readVariables
    split <;> rfl
  refine h.of_retains (.of_same rfl rfl rfl rfl) h.untimed
    (h.tended.commands hcommanded.events hcommanded.worker (hrereads.exact h.tended.exact) hoptions) ?_ ?_
  · exact h.whereabouts.eases (Session.eases_commands hcommanded.events hcommanded.worker
      (hrereads.stateOf h.tended.exact thread)) fun ho => ho
  · rintro j hj rfl number hnumber p frames reason hphase hreport
    have hshelters := h.shelters j hj
    exact (h.displayed j hj rfl number hnumber p _ reason hphase hreport).readVariables h.tended.exact.indexed
      (hshelters.bindings_eq hnumber hphase hreport) id slot

/-- **What is displayed of a job** that is held at a line: the stack is made of its frames that are shown, and
what was read of them is what the scopes of the job hold. -/
theorem shows (h : Hosted settings thread w) {j : Job} (hj : j ∈ w.jobs) (hthread : j.thread = thread)
    {number : Nat} (hnumber : j.heap = some number) {p : Pause} (hphase : j.phase = some (.waiting p))
    {frames : List Frame} {reason : Reason} (hreport : p.report = .suspended j.thread frames reason)
    {t : DebugThread} (ht : w.session.target.thread? thread = some t) (hsuspended : t.state = .suspended) :
    t.Shows (w.session.target.shown frames) w.bindings := by
  subst hthread
  refine (h.displayed j hj rfl number hnumber p _ reason hphase hreport t ht hsuspended).of_same ?_
  intro frame hframe
  exact (h.shelters j hj).bindings_eq hnumber hphase hreport frame (Target.mem_of_mem_shown hframe)

/-- The control side makes a call. -/
theorem call (h : Hosted settings thread w) {c : ControlCall}
    (hreads : ∀ bindings id slot, c = .readVariables bindings id slot → bindings = w.bindings) :
    Hosted settings thread (w.withSession (c.run w.session)) := by
  by_cases hc : ∃ bindings id slot, c = .readVariables bindings id slot
  · obtain ⟨bindings, id, slot, rfl⟩ := hc
    obtain rfl := hreads bindings id slot rfl
    exact h.read id slot
  · have htarget : (c.run w.session).target = w.session.target :=
      w.session.target_call fun bindings id slot he => hc ⟨bindings, id, slot, he⟩
    have hworker := w.session.worker_call c
    obtain ⟨cs, hevents⟩ : ∃ cs : List Command,
        (c.run w.session).queue.events = w.session.queue.events ++ cs.map .command := by
      by_cases hcancel : c = .cancel
      · subst hcancel
        refine ⟨[], ?_⟩
        show (w.session.queue.cancel).events = _
        unfold EventQueue.cancel
        split <;> simp
      · obtain ⟨cs, hcs⟩ := ControlCall.commanded w.session c hcancel
        exact ⟨cs, hcs.events⟩
    refine h.of_retains (.of_same rfl rfl rfl rfl) h.untimed
      (h.tended.commands hevents hworker (htarget ▸ h.tended.exact)
        (congrArg Target.options htarget)) ?_
      (h.displayed_of_spares ?_)
    · exact h.whereabouts.eases (Session.eases_commands hevents hworker
        (congrArg (Target.stateOf · thread) htarget)) fun ho => ho
    · show w.session.target.Spares (c.run w.session).target thread
      rw [htarget]
      exact .refl _ _

/-- Someone else reports something, or gives up on a pause. -/
theorem hears (h : Hosted settings thread w) {session : Session}
    (htended : session.Tended settings.targetOptions thread) (heases : w.session.Eases session thread)
    (htarget : session.target = w.session.target) : Hosted settings thread (w.withSession session) := by
  refine h.of_retains (.of_same rfl rfl rfl rfl) h.untimed htended (h.whereabouts.eases heases id)
    (h.displayed_of_spares ?_)
  show w.session.target.Spares session.target thread
  rw [htarget]
  exact .refl _ _

/-- **Every step keeps the invariant.** -/
theorem unforgedStep (h : Hosted settings thread w) {act : Option Act} (hstep : UnforgedStep thread w act w') :
    Hosted settings thread w' := by
  cases hstep with
  | dispatch hd => exact h.dispatch hd
  | step hjobs hj => exact h.advanced hjobs hj
  | giveUp hjobs hj =>
      obtain ⟨p, milliseconds, -, htime, -⟩ := giveUp?_cases hj
      cases h.untimed.symm.trans htime
  | @beginScript i id script hrest hnew =>
      refine h.begin (w.nextHeap + 1) rfl rfl hnew (Nat.le_succ _) fun number hnumber => ?_
      obtain rfl : w.nextHeap = number := Option.some.inj hnumber
      refine ⟨Nat.le_refl _, Nat.lt_succ_self _, Job.scripted_ofScript id (i := { i with
        heapNumber := w.nextHeap }) ⟨hrest.stack, rfl, hrest.sound.functions, hrest.sound.sorted⟩ script⟩
  | beginCall id point hnew =>
      exact h.begin w.nextHeap rfl rfl hnew (Nat.le_refl _) fun number hnumber => by
        cases hnumber
  | call hreads => exact h.call hreads
  | @report n hn =>
      obtain ⟨htarget, -⟩ := w.session.notify_frame n
      refine h.hears (h.tended.notify fun frames he => hn (he ▸ rfl)) ?_ htarget
      exact w.session.eases_notify fun hid => absurd hid hn
  | abandonPause hne =>
      exact h.hears ⟨h.tended.exact, h.tended.options, h.tended.short, h.tended.frameless⟩
        ⟨.inl rfl, id, id⟩ rfl
  | interrupt traps held =>
      exact h.of_retains (.of_same rfl rfl rfl rfl) h.untimed h.tended h.whereabouts h.displayed

end Hosted

/-- A job stays where it is while others make steps. -/
theorem exists_job_of_unforgedStep {act : Option Act} (hstep : UnforgedStep thread w act w')
    (hact : ∀ before after, act ≠ some (.step thread before after)) {j : Job} (hj : j ∈ w.jobs)
    (hthread : j.thread = thread) :
    ∃ j' ∈ w'.jobs, j'.thread = thread ∧ j'.run = j.run ∧ j'.phase = j.phase ∧ j'.heap = j.heap := by
  have hsame (hmem : j ∈ w'.jobs) :
      ∃ j' ∈ w'.jobs, j'.thread = thread ∧ j'.run = j.run ∧ j'.phase = j.phase ∧ j'.heap = j.heap :=
    ⟨j, hmem, hthread, rfl, rfl, rfl⟩
  have hothers {b : Bridge} {before after : List Job} {k k' : Job} (hjobs : w.jobs = before ++ k :: after)
      (hne : k.thread ≠ thread) : j ∈ (w.advanced b before k' after).jobs :=
    mem_jobs_advanced_of_ne hjobs hj fun he => hne (he ▸ hthread)
  cases hstep with
  | dispatch hd =>
      obtain ⟨f, hjobs, hf⟩ := (retains_dispatchStep? hd).jobs
      refine ⟨f j, hjobs ▸ List.mem_map_of_mem hj, ?_⟩
      rcases hf j with he | he <;> rw [he] <;> exact ⟨hthread, rfl, rfl, rfl⟩
  | step hjobs | giveUp hjobs => exact hsame (hothers hjobs fun he => hact _ _ (by rw [he]))
  | @beginScript i id script =>
      refine hsame ?_
      show j ∈ (World.begin { w with nextHeap := w.nextHeap + 1 } _).jobs
      rw [jobs_begin]
      exact List.mem_append_left _ hj
  | beginCall =>
      refine hsame ?_
      rw [jobs_begin]
      exact List.mem_append_left _ hj
  | call | report | abandonPause | interrupt => exact hsame hj

/-! ### What is shown -/

/-- **A published frame presents a site.** It is the frame of the activation; the line that it names is
there in its script, and is the statement that runs; and what is read of it is what the scope of the
activation holds, without the null values, sorted by name. -/
structure Presents (w : World) (i : Interpreter) (handle : Handle) (site : Site) : Prop where
  frame : (w.published? handle).map PublishedFrame.frame = some (site.activation.frame i.heapNumber)
  line : ∃ text, site.activation.script.line? site.activation.line = some text ∧
    Header.read (Text.trim text.toList) = .ok site.statement.header
  read : ∀ v, v ∈ (w.readVariables handle).1 ↔
    i.heap.get? site.activation.scope v.name = some v.value ∧ v.value.isNull = false
  sorted : (w.readVariables handle).1.Pairwise fun a b => a.name < b.name

/-- What is read of a frame that is shown. -/
theorem readVariables_of_shows {t : DebugThread} (ht : w.session.target.thread? thread = some t)
    {slot : Nat} {p : PublishedFrame} (hp : t.published[slot]? = some p) {frame : Frame}
    (hshows : p.Shows frame w.bindings) :
    (w.readVariables ⟨thread, slot⟩).1 = frame.variables w.bindings := by
  rw [← hshows.read.1]
  simp only [readVariables, Session.readVariables, ht, DebugThread.readVariables, hp]

/-- A slot that shows the frame of a site presents the site. -/
theorem presents_of_shows {t : DebugThread} (ht : w.session.target.thread? thread = some t) {slot : Nat}
    {i : Interpreter} {site : Site} (hsorted : i.heap.Sorted)
    (hplaced : site.Placed) (hscopes : ∀ index, w.bindings ⟨i.heapNumber, index⟩ = i.heap.bindings index)
    {p : PublishedFrame} (hp : t.published[slot]? = some p)
    (hshows : p.Shows (site.activation.frame i.heapNumber) w.bindings) :
    w.Presents i ⟨thread, slot⟩ site := by
  have hread : (w.readVariables ⟨thread, slot⟩).1 = visible (i.heap.bindings site.activation.scope) := by
    rw [readVariables_of_shows ht hp hshows, Frame.variables, site.activation.scope_frame]
    exact congrArg visible (hscopes _)
  refine ⟨?_, ?_, fun v => ?_, ?_⟩
  · simp [published?, ht, hp, hshows.same]
  · rw [hplaced.line]
    exact hplaced.statement.standsIn
  · rw [hread]
    exact mem_visible (hsorted _) v
  · rw [hread]
    exact sorted_visible (hsorted _)

/-- The frames that are shown are those of the sites that are. -/
theorem shown_sites (t : Target) (sites : List Site) (number : Nat) :
    t.shown (sites.map fun site => site.activation.frame number) =
      (sites.filter fun site => t.options.showDynamicCode || !site.activation.isDynamic).map
        fun site => site.activation.frame number := by
  unfold Target.shown
  split
  · next hshow => simp [hshow]
  · next hhide =>
      rw [List.filter_map]
      simp [Function.comp_def, Activation.isDynamic_frame, hhide]

/-- **What a line stop shows is what the interpreter is doing.** In a session whose pauses are waited for
without a bound, let the call of an interpreter be blocked at a line. Then an interpreter stands at a site of
the script that runs, and for as long as the call is blocked and its thread is seen to be suspended,
whatever anyone else does meanwhile, the frames of the thread present the activations of that interpreter,
innermost first: all of them if dynamic code is shown, else all but those of dynamic code. -/
theorem line_stop_shows_interpreter {settings : DebuggerSettings} (ht : settings.resumeTimeout = none)
    {thread : ThreadId} {trace : List (Option Act)} {w : World}
    (h : Execution (UnforgedStep thread) (create settings true) trace w) {j : Job} (hj : j ∈ w.jobs)
    (hthread : j.thread = thread) (hheap : j.heap.isSome = true) {p : Pause}
    (hphase : j.phase = some (.waiting p)) (hline : p.keepStep = false) :
    ∃ (root : Snapshot) (i : Interpreter) (site : Site) (outer : List Site) (r : Run Outcome),
      j.run = r.bind (fun outcome => .done (.script outcome)) ∧ i.StandsAt root site outer r ∧
      ∀ later w', Execution (UnforgedStep thread) w later w' →
        (∀ before after, some (.step thread before after) ∉ later) →
        w'.session.threadState thread = .ok .suspended →
        ∃ handles, w'.handles thread = .ok handles ∧
          List.Forall₂ (w'.Presents i) handles ((site :: outer).filter fun s =>
            settings.showDynamicCode || !s.activation.isDynamic) := by
  have hhosted : Hosted settings thread w :=
    h.state_invariant (hosted_create ht thread) fun ih hstep => ih.unforgedStep hstep
  obtain ⟨number, hnumber⟩ := Option.isSome_iff_exists.mp hheap
  have hshelters := hhosted.shelters j hj
  obtain ⟨frames, reason, hreport⟩ : ∃ frames reason, p.report = .suspended j.thread frames reason := by
    obtain ⟨-, -, -, -, e, r, -, hpause⟩ := hshelters.aligned _ hphase
    exact (Engine.shaped_of_pause hpause).line hline
  -- The run is at a checkpoint of a line, which fixes the interpreter it stands for.
  obtain ⟨root, i, site, outer, r, hrun, rfl, hstands, rfl, hbindings⟩ :=
    Job.exists_site (hshelters.scripted number hnumber) hshelters.aligned hphase hreport
  refine ⟨root, i, site, outer, r, hrun, hstands, fun later w' hlater hstay hstate => ?_⟩
  -- As long as the thread makes no step, its job stands where it stood.
  obtain ⟨hhosted', j', hj', hthread', hrun', hphase', hheap'⟩ := hlater.invariant
    (P := fun later w' => (∀ before after, some (.step thread before after) ∉ later) →
      Hosted settings thread w' ∧ ∃ j' ∈ w'.jobs, j'.thread = thread ∧ j'.run = j.run ∧
        j'.phase = j.phase ∧ j'.heap = j.heap)
    (fun _ => ⟨hhosted, j, hj, hthread, rfl, rfl, rfl⟩)
    (fun {acts z act z'} _ ih hstep hstay => by
      obtain ⟨hz, k, hk, hkt, hkr, hkp, hkh⟩ := ih fun before after hmem =>
        hstay before after (List.mem_append_left _ hmem)
      obtain ⟨k', hk', hkt', hkr', hkp', hkh'⟩ := exists_job_of_unforgedStep hstep
        (fun before after he => hstay before after (by simp [he])) hk hkt
      exact ⟨hz.unforgedStep hstep, k', hk', hkt', hkr'.trans hkr, hkp'.trans hkp, hkh'.trans hkh⟩)
    hstay
  obtain ⟨t, htarget, hsus⟩ : ∃ t, w'.session.target.thread? thread = some t ∧ t.state = .suspended := by
    unfold Session.threadState at hstate
    split at hstate
    · next t ht => exact ⟨t, ht, Except.ok.inj hstate⟩
    · cases hstate
  -- The heap has not changed either, so what clients read are its bindings at the stop.
  have hsame : j'.bindings = j.bindings := by
    unfold Job.bindings
    rw [hrun']
  have hscopes (index : Nat) : w'.bindings ⟨i.heapNumber, index⟩ = i.heap.bindings index := by
    rw [(hhosted'.shelters j' hj').scopes _ (hheap'.trans hnumber), hsame, hbindings]
  have hshows : t.Shows (w'.session.target.shown i.frames) w'.bindings :=
    hhosted'.shows hj' hthread' (hheap'.trans hnumber) (hphase'.trans hphase)
      (hreport.trans (by rw [hthread', hthread])) htarget hsus
  have hframes : i.frames = (site :: outer).map fun s => s.activation.frame i.heapNumber := by
    rw [Interpreter.frames, hstands.stack, List.map_cons, List.map_cons, List.map_map]
    rfl
  rw [hframes, shown_sites, hhosted'.tended.options] at hshows
  refine ⟨t.stack.map fun slot => ⟨thread, slot⟩, ?_, ?_⟩
  · rw [handles, Session.stackSlots, htarget]
    rfl
  · rw [List.forall₂_map_left_iff]
    rw [DebugThread.Shows, List.forall₂_map_right_iff] at hshows
    have hplaced : ∀ s ∈ site :: outer, s.Placed :=
      List.forall_mem_cons.mpr ⟨hstands.placed, hstands.on.placed⟩
    rw [List.forall₂_iff_get] at hshows ⊢
    refine ⟨hshows.1, fun place hplace hsite => ?_⟩
    obtain ⟨q, hq, hshown⟩ := hshows.2 place hplace hsite
    exact presents_of_shows htarget hstands.sorted
      (hplaced _ (List.mem_of_mem_filter (List.get_mem _ ⟨place, hsite⟩))) hscopes hq hshown

/-- A script that calls a function. -/
def nesting : Script :=
  { id := ⟨0⟩, source := "let x = 1\nfn f\nlet y = 2\nprint y\nend\ncall f", resource := some "main" }

/-- A world with a breakpoint in the function. -/
def breaking : World :=
  let fresh := create {} true
  fresh.withSession ((ControlCall.addBreakpoint { resource := "main", line := 4 }).run fresh.session)

/-- The world in which thread 1 has stopped there. -/
def stoppedInside : World :=
  ((breaking.beginScript ⟨1⟩ {} nesting).settleFrom [] 43).1

/-- Inside the function two frames are shown, that of the function and that of the script which called it. -/
theorem line_stop_shows_interpreter_nesting :
    stoppedInside.session.threadState ⟨1⟩ = .ok .suspended ∧
    ∃ (root : Snapshot) (i : Interpreter) (site : Site) (outer : List Site) (r : Run Outcome),
      i.StandsAt root site outer r ∧
      List.Forall₂ (stoppedInside.Presents i) [⟨⟨1⟩, 1⟩, ⟨⟨1⟩, 2⟩]
        ((site :: outer).filter fun s => !s.activation.isDynamic) := by
  have hbreaking : Execution (UnforgedStep ⟨1⟩) (create {} true) _ breaking :=
    .single (.call fun bindings id slot he => by cases he)
  have hbegun := hbreaking.next
    (.beginScript ⟨1⟩ nesting (Interpreter.atRest_new .empty fun _ => none) (by decide))
  obtain ⟨acts, hstopped, -⟩ := execution_settleFrom hbegun 43
    fun k _ act w' hany hstep => unforgedStep_of_anyStep hany hstep
  have hstop : (stoppedInside.jobs.any fun j => j.thread == ⟨1⟩ && j.heap.isSome &&
      j.phase.any fun phase => Job.waits phase && phase.pause?.any fun p => !p.keepStep) = true := by
    decide +kernel
  obtain ⟨j, hj, hwaits⟩ := List.any_eq_true.mp hstop
  rw [Bool.and_eq_true, Bool.and_eq_true, beq_iff_eq] at hwaits
  obtain ⟨⟨hthread, hheap⟩, hphase⟩ := hwaits
  obtain ⟨phase, hphase, hline⟩ := (Option.any_eq_true _ _).mp hphase
  rw [Bool.and_eq_true] at hline
  have hsuspended : stoppedInside.session.threadState ⟨1⟩ = .ok .suspended := by decide +kernel
  cases phase with
  | waiting p =>
      have htimeout : ({} : DebuggerSettings).resumeTimeout = none := rfl
      obtain ⟨root, i, site, outer, r, -, hstands, hshows⟩ :=
        line_stop_shows_interpreter htimeout hstopped hj hthread hheap hphase
          (by simpa [Phase.pause?] using hline.2)
      obtain ⟨handles, hhandles, hall⟩ :=
        hshows [] stoppedInside .start (fun _ _ => List.not_mem_nil) hsuspended
      have htwo : stoppedInside.handles ⟨1⟩ = .ok [⟨⟨1⟩, 1⟩, ⟨⟨1⟩, 2⟩] := by decide +kernel
      obtain rfl := Except.ok.inj (hhandles.symm.trans htwo)
      exact ⟨hsuspended, root, i, site, outer, r, hstands, hall⟩
  | entering | opening | reporting | confirming | abandoning | excusing | returned => cases hline.1

end World

end Pausepoint
