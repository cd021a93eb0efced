import Mathlib.Data.List.Nodup
import Pausepoint.Proofs.Execution
import Pausepoint.Proofs.Session.Concord
import Pausepoint.World.Basic

/-!
# Pausepoint.Proofs.World.Moves

The world as parties that move in any order.

`World.Moves` lets everyone take the next step of their own: the dispatcher its next task or
event, every job the next step of its call, a new job begin, a waiting call give up, and the
control side make any call. The parties never move at once, and nothing else is said about
their order.

* `CallStep` — what one step of a job does, one rule per step of a call;
* `phaseOf` — where the call of a thread is, and how this survives changes of the jobs;
* `dispatchStep?_cases` — what one step of the dispatcher does while no client interrupts it.

The moves of single parties that the rewriting of a world to rest (`World.step?`) picks are
among these (`moves_of_step?`).
-/

namespace Pausepoint

/-! ### Steps of calls -/

namespace Bridge

@[simp] theorem notify_fst (b : Bridge) (n : Notification) : (b.notify n).1 = (b.session.notify n).1 :=
  rfl

@[simp] theorem session_mention (b : Bridge) (n : Notification) :
    (b.mention n).session = (b.session.notify n).2 := rfl

@[simp] theorem engine_mention (b : Bridge) (n : Notification) : (b.mention n).engine = b.engine := rfl

end Bridge

/-- What ends a wait by a decision is in the slot. -/
theorem Engine.decided_of_wakening {e : Engine} {thread : ThreadId} {mode : Mode}
    (h : e.wakening? thread = some (.decided mode)) : e.slots.get? thread = some (some mode) := by
  unfold wakening? at h
  split at h <;> cases h
  assumption

theorem Engine.closed_of_wakening {e : Engine} {thread : ThreadId} {c : Closed}
    (h : e.wakening? thread = some (.closed c)) : e.closed = some c := by
  unfold wakening? at h
  split at h <;> cases h
  assumption

/-- What one step of the job of a thread does to the bridge and to the call it is in. -/
inductive CallStep (b : Bridge) (thread : ThreadId) : Option Phase → Bridge → Option Phase → Prop
  /-- The engine starts or ends. -/
  | announce {n : Notification} (hn : n.thread? = none) :
      CallStep b thread none (b.mention n) (some (.returned (b.notify n).1))
  /-- A detached engine ends without a word. -/
  | silent : CallStep b thread none b (some (.returned (.ok ())))
  | enter (r : Request) : CallStep b thread none b (some (.entering r))
  | refuse {r : Request} {cause : Refusal} (h : b.engine.decide thread r = .refuse cause) :
      CallStep b thread (some (.entering r)) b (some (.returned (.error cause)))
  | pass {r : Request} (h : b.engine.decide thread r = .pass) :
      CallStep b thread (some (.entering r)) b (some (.returned (.ok ())))
  | pause {r : Request} {p : Pause} (h : b.engine.decide thread r = .pause p) :
      CallStep b thread (some (.entering r)) b (some (.opening p))
  | openSlot (p : Pause) :
      CallStep b thread (some (.opening p)) { b with engine := b.engine.openSlot thread }
        (some (.reporting p))
  | report {p : Pause} (h : (b.notify p.report).1 = .ok ()) :
      CallStep b thread (some (.reporting p)) (b.mention p.report) (some (.waiting p))
  | unreported {p : Pause} {cause : Refusal} (h : (b.notify p.report).1 = .error cause) :
      CallStep b thread (some (.reporting p))
        { b.mention p.report with engine := b.engine.dropSlot thread }
        (some (.returned (if b.engine.closed = some .detached then .ok () else .error cause)))
  | takeUp {p : Pause} {mode : Mode} (h : b.engine.wakening? thread = some (.decided mode)) :
      CallStep b thread (some (.waiting p)) { b with engine := b.engine.takeUp thread p mode }
        (some (.confirming mode))
  | closed {p : Pause} {c : Closed} (h : b.engine.wakening? thread = some (.closed c)) :
      CallStep b thread (some (.waiting p)) { b with engine := b.engine.dropSlot thread }
        (some (.returned c.reply))
  | confirm (mode : Mode) :
      CallStep b thread (some (.confirming mode)) (b.mention (.resumed thread mode))
        (some (.returned (.ok ())))
  | abandon (milliseconds : Nat) :
      CallStep b thread (some (.abandoning milliseconds))
        { b with session := (b.session.abandonPause thread).2 } (some (.excusing milliseconds))
  | excuse (milliseconds : Nat) :
      CallStep b thread (some (.excusing milliseconds)) (b.mention (.resumed thread .clientRequest))
        (some (.returned (.error (.resumeTimeout milliseconds))))
  | leave (reply : Reply) : CallStep b thread (some (.returned reply)) b none

/-- **Every step of a call is one of these.** -/
theorem callStep_of_phase {b b' : Bridge} {thread : ThreadId} {phase phase' : Phase}
    (h : phase.advance? b thread = some (b', phase')) :
    CallStep b thread (some phase) b' (some phase') := by
  cases phase with
  | entering r =>
      simp only [Phase.advance?] at h
      split at h <;> cases h
      · next hd => exact .refuse hd
      · next hd => exact .pass hd
      · next hd => exact .pause hd
  | opening p => cases h; exact .openSlot p
  | reporting p =>
      simp only [Phase.advance?] at h
      split at h <;> cases h
      · next hn =>
          obtain rfl := congrArg Prod.snd hn
          exact .report (congrArg Prod.fst hn)
      · next hn =>
          obtain rfl := congrArg Prod.snd hn
          exact .unreported (congrArg Prod.fst hn)
  | waiting p =>
      simp only [Phase.advance?] at h
      split at h <;> cases h
      · next hw => exact .takeUp hw
      · next hw => exact .closed hw
  | confirming mode => cases h; exact .confirm mode
  | abandoning milliseconds => cases h; exact .abandon milliseconds
  | excusing milliseconds => cases h; exact .excuse milliseconds
  | returned reply => cases h

/-- **A step of a job**: it begins a call at its checkpoint, makes a step of that call, or leaves it
with a reply. -/
theorem Job.advance?_cases {b b' : Bridge} {j j' : Job} (h : j.advance? b = some (b', j')) :
    ∃ point heap resume, j.run = .ask point heap resume ∧
      (j.phase = none ∧ b' = (Job.begin b point).1 ∧ j' = j.inPhase (Job.begin b point).2 ∨
        (∃ phase phase', j.phase = some phase ∧ phase.advance? b j.thread = some (b', phase') ∧
          j' = j.inPhase phase') ∨
        ∃ reply, j.phase = some (.returned reply) ∧ b' = b ∧
          j' = { j with run := resume reply, phase := none }) := by
  unfold advance? at h
  split at h
  · cases h
  · next point heap resume hrun =>
      refine ⟨point, heap, resume, hrun, ?_⟩
      split at h
      · next hphase =>
          cases h
          exact .inl ⟨hphase, rfl, rfl⟩
      · next reply hphase =>
          cases h
          exact .inr (.inr ⟨reply, hphase, rfl, rfl⟩)
      · next phase _ hphase =>
          obtain ⟨⟨b₁, phase'⟩, hadvance, hjob⟩ := Option.map_eq_some_iff.mp h
          cases hjob
          exact .inr (.inl ⟨phase, phase', hphase, hadvance, rfl⟩)

/-- **Every step of a job is one of these**, and the job stays with its thread. -/
theorem callStep_of_job {b b' : Bridge} {j j' : Job} (h : j.advance? b = some (b', j')) :
    CallStep b j.thread j.phase b' j'.phase ∧ j'.thread = j.thread := by
  obtain ⟨point, heap, resume, -, ⟨hphase, rfl, rfl⟩ | ⟨phase, phase', hphase, hadvance, rfl⟩ |
    ⟨reply, hphase, rfl, rfl⟩⟩ := Job.advance?_cases h
  · refine ⟨?_, rfl⟩
    rw [hphase]
    cases point with
    | started => exact .announce rfl
    | ended =>
        simp only [Job.begin, Bridge.engineTerminated, Job.inPhase]
        split
        · exact .silent
        · exact .announce rfl
    | load script depth => exact .enter _
    | line script line depth frames => exact .enter _
  · rw [hphase]
    exact ⟨callStep_of_phase hadvance, rfl⟩
  · rw [hphase]
    exact ⟨.leave reply, rfl⟩

theorem Job.heap_of_advance {b b' : Bridge} {j j' : Job} (h : j.advance? b = some (b', j')) :
    j'.heap = j.heap := by
  obtain ⟨point, heap, resume, -, ⟨-, -, rfl⟩ | ⟨phase, phase', -, -, rfl⟩ | ⟨reply, -, -, rfl⟩⟩ :=
    Job.advance?_cases h
  · rfl
  · rfl
  · rfl

/-! ### Where the call of a thread is -/

/-- Where the call of a thread is, if it is in one. -/
def phaseOf (jobs : List Job) (thread : ThreadId) : Option Phase :=
  (jobs.find? fun j => j.thread = thread).bind Job.phase

theorem phaseOf_of_mem {jobs : List Job} (hd : (jobs.map Job.thread).Nodup) {j : Job}
    (hj : j ∈ jobs) : phaseOf jobs j.thread = j.phase := by
  induction jobs with
  | nil => cases hj
  | cons k rest ih =>
      rw [List.map_cons, List.nodup_cons] at hd
      unfold phaseOf at ih ⊢
      rw [List.find?_cons]
      rcases List.mem_cons.mp hj with rfl | hj
      · simp
      · have hne : k.thread ≠ j.thread := fun he => hd.1 (he ▸ List.mem_map_of_mem hj)
        simpa [hne] using ih hd.2 hj

theorem phaseOf_of_not_mem {jobs : List Job} {thread : ThreadId} (h : thread ∉ jobs.map Job.thread) :
    phaseOf jobs thread = none := by
  have hnone : jobs.find? (fun j => j.thread = thread) = none :=
    List.find?_eq_none.mpr fun j hj => by
      simpa using fun he => h (List.mem_map.mpr ⟨j, hj, he⟩)
  rw [phaseOf, hnone]
  rfl

/-- Who is in a call has a job. -/
theorem exists_job_of_phaseOf {jobs : List Job} {thread : ThreadId} {phase : Phase}
    (h : phaseOf jobs thread = some phase) : ∃ j ∈ jobs, j.thread = thread ∧ j.phase = some phase := by
  obtain ⟨j, hfind, hphase⟩ := Option.bind_eq_some_iff.mp h
  exact ⟨j, List.mem_of_find?_eq_some hfind, by simpa using List.find?_some hfind, hphase⟩

theorem phaseOf_replace {before after : List Job} {j j' : Job} (hthread : j'.thread = j.thread)
    (hd : ((before ++ j :: after).map Job.thread).Nodup) (thread : ThreadId) :
    phaseOf (before ++ j' :: after) thread =
      if thread = j.thread then j'.phase else phaseOf (before ++ j :: after) thread := by
  split
  · next he =>
      have hd' : ((before ++ j' :: after).map Job.thread).Nodup := by simpa [hthread] using hd
      rw [he, ← hthread]
      exact phaseOf_of_mem hd' (by simp)
  · next he =>
      have hne : ∀ k : Job, k.thread = j.thread → decide (k.thread = thread) = false := by
        intro k hk
        simpa [hk] using Ne.symm he
      simp only [phaseOf, List.find?_append, List.find?_cons, hne j rfl, hne j' hthread]

theorem phaseOf_remove {before after : List Job} {j : Job}
    (hd : ((before ++ j :: after).map Job.thread).Nodup) (thread : ThreadId) :
    phaseOf (before ++ after) thread =
      if thread = j.thread then none else phaseOf (before ++ j :: after) thread := by
  split
  · next he =>
      apply phaseOf_of_not_mem
      rw [List.map_append, List.map_cons, List.nodup_middle, List.nodup_cons] at hd
      rw [he, List.map_append]
      exact hd.1
  · next he =>
      have hne : decide (j.thread = thread) = false := by simpa using Ne.symm he
      simp only [phaseOf, List.find?_append, List.find?_cons, hne]

theorem phaseOf_snoc {jobs : List Job} {j : Job} (hphase : j.phase = none)
    (hnew : j.thread ∉ jobs.map Job.thread) (thread : ThreadId) :
    phaseOf (jobs ++ [j]) thread = phaseOf jobs thread := by
  by_cases he : j.thread = thread
  · subst he
    have hnone : jobs.find? (fun k => k.thread = j.thread) = none :=
      List.find?_eq_none.mpr fun k hk => by
        simpa using fun he => hnew (List.mem_map.mpr ⟨k, hk, he⟩)
    simp [phaseOf, List.find?_append, hnone, hphase]
  · simp [phaseOf, List.find?_append, he]

/-- Jobs that differ at most in what clients know of them. -/
def SameCalls (jobs jobs' : List Job) : Prop :=
  ∃ f : Job → Job, jobs' = jobs.map f ∧
    ∀ j, (f j).thread = j.thread ∧ (f j).phase = j.phase ∧ (f j).run = j.run

theorem SameCalls.refl (jobs : List Job) : SameCalls jobs jobs :=
  ⟨id, by simp, fun _ => ⟨rfl, rfl, rfl⟩⟩

theorem SameCalls.trans {jobs jobs' jobs'' : List Job} (h : SameCalls jobs jobs')
    (h' : SameCalls jobs' jobs'') : SameCalls jobs jobs'' := by
  obtain ⟨f, rfl, hf⟩ := h
  obtain ⟨g, rfl, hg⟩ := h'
  refine ⟨g ∘ f, by rw [List.map_map], fun j => ?_⟩
  exact ⟨(hg _).1.trans (hf j).1, (hg _).2.1.trans (hf j).2.1, (hg _).2.2.trans (hf j).2.2⟩

/-- A job that is in a call is at a checkpoint. -/
def Job.Asks (j : Job) : Prop :=
  j.phase.isSome → ∃ point heap resume, j.run = .ask point heap resume

theorem asks_of_no_phase {j : Job} (hphase : j.phase = none) : j.Asks := by
  intro hsome
  rw [hphase] at hsome
  cases hsome

theorem SameCalls.asks {jobs jobs' : List Job} (h : SameCalls jobs jobs') (hj : ∀ j ∈ jobs, j.Asks) :
    ∀ j ∈ jobs', j.Asks := by
  obtain ⟨f, rfl, hf⟩ := h
  intro j hmem hphase
  obtain ⟨k, hk, rfl⟩ := List.mem_map.mp hmem
  rw [(hf k).2.1] at hphase
  rw [(hf k).2.2]
  exact hj k hk hphase

/-- A job that makes a step asks for as long as it is in a call. -/
theorem asks_of_advance {b b' : Bridge} {j j' : Job} (h : j.advance? b = some (b', j')) : j'.Asks := by
  obtain ⟨point, heap, resume, hrun, ⟨-, -, rfl⟩ | ⟨phase, phase', -, -, rfl⟩ | ⟨reply, -, -, rfl⟩⟩ :=
    Job.advance?_cases h
  · exact fun _ => ⟨point, heap, resume, hrun⟩
  · exact fun _ => ⟨point, heap, resume, hrun⟩
  · nofun

/-- A job in a call makes the steps of the call. -/
theorem advance_of_phase {b b' : Bridge} {j : Job} {phase phase' : Phase} (hasks : j.Asks)
    (hphase : j.phase = some phase) (h : phase.advance? b j.thread = some (b', phase')) :
    j.advance? b = some (b', j.inPhase phase') := by
  obtain ⟨point, heap, resume, hrun⟩ := hasks (by rw [hphase]; rfl)
  unfold Job.advance?
  rw [hrun]
  dsimp only
  rw [hphase]
  cases phase with
  | returned reply => cases h
  | entering | opening | reporting | waiting | confirming | abandoning | excusing =>
      dsimp only
      rw [h]
      rfl

theorem SameCalls.threads {jobs jobs' : List Job} (h : SameCalls jobs jobs') :
    jobs'.map Job.thread = jobs.map Job.thread := by
  obtain ⟨f, rfl, hf⟩ := h
  simp [Function.comp_def, (hf _).1]

theorem SameCalls.phaseOf {jobs jobs' : List Job} (h : SameCalls jobs jobs') (thread : ThreadId) :
    phaseOf jobs' thread = phaseOf jobs thread := by
  obtain ⟨f, rfl, hf⟩ := h
  unfold Pausepoint.phaseOf
  rw [List.find?_map]
  simp only [Function.comp_def, (hf _).1, Option.bind_map, (hf _).2.1]

/-- **Giving up** needs a call that waits, a bound, and nothing that has ended the wait. -/
theorem giveUp?_cases {b b' : Bridge} {j j' : Job} (h : j.giveUp? b = some (b', j')) :
    ∃ p milliseconds, j.phase = some (.waiting p) ∧
      b.engine.resumeTimeout = some milliseconds ∧ b.engine.wakening? j.thread = none ∧
      b' = { b with engine := (b.engine.dropSlot j.thread).dropStep j.thread } ∧
      j' = j.inPhase (.abandoning milliseconds) := by
  unfold Job.giveUp? at h
  split at h
  · next phase hphase =>
      obtain ⟨⟨b₁, phase'⟩, hgive, hjob⟩ := Option.map_eq_some_iff.mp h
      cases hjob
      unfold Phase.giveUp? at hgive
      split at hgive
      · next p =>
          split at hgive
          · next milliseconds htime hwake =>
              cases hgive
              exact ⟨p, milliseconds, hphase, htime, hwake, rfl, rfl⟩
          · cases hgive
      · cases hgive
  · cases h

/-! ### Moves -/

namespace World

/-- The world after a job among others has made a step. -/
def advanced (w : World) (b : Bridge) (before : List Job) (j : Job) (after : List Job) : World :=
  { ({ w with bridge := b } : World).keepScopes j with
    jobs := if j.result?.isSome then before ++ after else before ++ j :: after }

/-- Who moved. -/
inductive Act
  /-- The dispatcher did a task, or took an event if none was left. -/
  | dispatch (task : Option Task)
  /-- The job of a thread made a step, from one place of a call to another. -/
  | step (thread : ThreadId) (before after : Option Phase)
  /-- A thread began a job. -/
  | begin (thread : ThreadId)
  /-- The control side made a call. -/
  | call (c : ControlCall)

/-- The dispatcher moved, or a job. -/
def Act.IsStep : Act → Prop
  | .dispatch _ | .step .. => True
  | .begin _ | .call _ => False

/-- The next event is a command that ends everything. -/
def Ends (s : Session) : Prop :=
  s.worker.agenda = [] ∧
    (s.queue.events.head? = some (.command .terminate) ∨ s.queue.events.head? = some (.command .disconnect))

instance (s : Session) : Decidable (Ends s) :=
  inferInstanceAs (Decidable (_ ∧ (_ ∨ _)))

/-- One move of someone: the dispatcher takes an event or does a task, a job makes a step or gives up waiting, a
thread begins a job, or the control side makes a call. Nobody takes a command that ends everything, and nobody
cancels. -/
inductive Moves : World → Act → World → Prop
  | dispatch {w w' : World} {reports : List Report} (h : w.dispatchStep? = some (w', reports))
      (hends : ¬ Ends w.session) : Moves w (.dispatch w.session.worker.agenda.head?) w'
  | step {w : World} {b : Bridge} {before after : List Job} {j j' : Job}
      (hjobs : w.jobs = before ++ j :: after) (h : j.advance? w.bridge = some (b, j')) :
      Moves w (.step j.thread j.phase j'.phase) (w.advanced b before j' after)
  | giveUp {w : World} {b : Bridge} {before after : List Job} {j j' : Job}
      (hjobs : w.jobs = before ++ j :: after) (h : j.giveUp? w.bridge = some (b, j')) :
      Moves w (.step j.thread j.phase j'.phase) (w.advanced b before j' after)
  | begin {w : World} {j : Job} (nextHeap : Nat) (hphase : j.phase = none)
      (hnew : j.thread ∉ w.jobs.map Job.thread) :
      Moves w (.begin j.thread) ({ w with nextHeap }.begin j)
  | call (w : World) (c : ControlCall) (hc : c ≠ .cancel) :
      Moves w (.call c) (w.withSession (c.run w.session))

@[simp] theorem bridge_keepScopes (w : World) (j : Job) : (w.keepScopes j).bridge = w.bridge := by
  unfold keepScopes
  split <;> rfl

@[simp] theorem jobs_keepScopes (w : World) (j : Job) : (w.keepScopes j).jobs = w.jobs := by
  unfold keepScopes
  split <;> rfl

/-- No client interrupts the dispatcher, and the engine gets the commands. -/
structure Calm (w : World) : Prop where
  attached : w.attached = true
  traps : w.traps = []
  held : w.held = false

theorem calm_keepScopes {w : World} (h : w.Calm) (j : Job) : (w.keepScopes j).Calm := by
  unfold keepScopes
  split <;> exact ⟨h.attached, h.traps, h.held⟩

theorem calm_advanced {w : World} (h : w.Calm) (b : Bridge) (before : List Job) (j : Job)
    (after : List Job) : (w.advanced b before j after).Calm := by
  have hk := calm_keepScopes (w := { w with bridge := b }) ⟨h.attached, h.traps, h.held⟩ j
  exact ⟨hk.attached, hk.traps, hk.held⟩

theorem calm_begin {w : World} (h : w.Calm) (j : Job) : (w.begin j).Calm :=
  calm_keepScopes (w := { w with jobs := w.jobs ++ [j] }) ⟨h.attached, h.traps, h.held⟩ j

@[simp] theorem bridge_advanced (w : World) (b : Bridge) (before : List Job) (j : Job)
    (after : List Job) : (w.advanced b before j after).bridge = b := by
  unfold advanced
  exact bridge_keepScopes _ j

@[simp] theorem bridge_begin (w : World) (j : Job) : (w.begin j).bridge = w.bridge :=
  bridge_keepScopes _ j

@[simp] theorem jobs_begin (w : World) (j : Job) : (w.begin j).jobs = w.jobs ++ [j] :=
  jobs_keepScopes _ j

theorem nodup_begin {w : World} {j : Job} (hnew : j.thread ∉ w.jobs.map Job.thread)
    (hd : (w.jobs.map Job.thread).Nodup) : ((w.begin j).jobs.map Job.thread).Nodup := by
  rw [jobs_begin, List.map_append, List.nodup_append']
  exact ⟨hd, List.nodup_singleton _, by simpa using hnew⟩

theorem forall_jobs_begin {P : Job → Prop} {w : World} {j : Job} (hj : P j) (h : ∀ k ∈ w.jobs, P k) :
    ∀ k ∈ (w.begin j).jobs, P k := by
  rw [jobs_begin]
  exact List.forall_mem_append.mpr ⟨h, List.forall_mem_singleton.mpr hj⟩

/-- A job that is over leaves. -/
theorem jobs_advanced (w : World) (b : Bridge) (before : List Job) (j : Job) (after : List Job) :
    (w.advanced b before j after).jobs =
      if j.result?.isSome then before ++ after else before ++ j :: after := rfl

/-- After the step there are the other jobs, and the job itself unless it is over. -/
theorem mem_jobs_advanced {w : World} {b : Bridge} {before after : List Job} {j k : Job} :
    k ∈ (w.advanced b before j after).jobs ↔ k ∈ before ++ after ∨ k = j ∧ j.result? = none := by
  rw [jobs_advanced]
  split
  · next hover =>
      have hsome : j.result? ≠ none := Option.isSome_iff_ne_none.mp hover
      simp [hsome]
  · next hover =>
      have hnone : j.result? = none := by simpa using hover
      simp only [List.mem_append, List.mem_cons, hnone, and_true]
      exact or_left_comm.trans or_comm

/-- The only job there is is the one that makes a step. -/
theorem splits_single {jobs before after : List Job} {j k : Job} (hk : jobs = [k])
    (hjobs : jobs = before ++ j :: after) : before = [] ∧ j = k ∧ after = [] := by
  rw [hk] at hjobs
  simpa [List.append_eq_cons_iff, eq_comm] using hjobs

theorem mem_jobs_of_mem_others {w : World} {before after : List Job} {j k : Job}
    (hjobs : w.jobs = before ++ j :: after) (hk : k ∈ before ++ after) : k ∈ w.jobs := by
  rw [hjobs]
  exact List.mem_append.mpr ((List.mem_append.mp hk).imp_right (List.mem_cons_of_mem j))

/-- Jobs that make no step stay. -/
theorem mem_jobs_advanced_of_ne {w : World} {b : Bridge} {before after : List Job} {j j' k : Job}
    (hjobs : w.jobs = before ++ j :: after) (hk : k ∈ w.jobs) (hne : k ≠ j) :
    k ∈ (w.advanced b before j' after).jobs := by
  rw [hjobs, List.mem_append, List.mem_cons] at hk
  refine mem_jobs_advanced.mpr (.inl (List.mem_append.mpr ?_))
  exact hk.imp_right fun hk => hk.resolve_left hne

/-- **Where calls are after a step of one of them.** -/
theorem phaseOf_advanced {w : World} {b : Bridge} {before after : List Job} {j j' : Job}
    (hjobs : w.jobs = before ++ j :: after) (hthread : j'.thread = j.thread)
    (hover : j'.result?.isSome → j'.phase = none) (hd : (w.jobs.map Job.thread).Nodup)
    (thread : ThreadId) :
    phaseOf (w.advanced b before j' after).jobs thread =
      if thread = j.thread then j'.phase else phaseOf w.jobs thread := by
  rw [hjobs] at hd ⊢
  unfold advanced
  dsimp only
  split
  · next hres =>
      rw [phaseOf_remove hd, hover hres]
  · exact phaseOf_replace hthread hd thread

theorem nodup_advanced {w : World} {b : Bridge} {before after : List Job} {j j' : Job}
    (hjobs : w.jobs = before ++ j :: after) (hthread : j'.thread = j.thread)
    (hd : (w.jobs.map Job.thread).Nodup) :
    ((w.advanced b before j' after).jobs.map Job.thread).Nodup := by
  rw [hjobs] at hd
  unfold advanced
  dsimp only
  split
  · rw [List.map_append, List.map_cons, List.nodup_middle, List.nodup_cons] at hd
    rw [List.map_append]
    exact hd.2
  · simpa [hthread] using hd

/-- What holds of every job still does if it holds of the job that made the step. -/
theorem forall_jobs_advanced {P : Job → Prop} {w : World} {b : Bridge} {before after : List Job}
    {j j' : Job} (hjobs : w.jobs = before ++ j :: after) (hj' : P j') (h : ∀ k ∈ w.jobs, P k) :
    ∀ k ∈ (w.advanced b before j' after).jobs, P k := by
  intro k hk
  rcases mem_jobs_advanced.mp hk with hk | ⟨rfl, -⟩
  · exact h k (mem_jobs_of_mem_others hjobs hk)
  · exact hj'

/-- A job is over only once it has left its last call. -/
theorem phase_of_result {b b' : Bridge} {j j' : Job} (h : j.advance? b = some (b', j'))
    (hover : j'.result?.isSome) : j'.phase = none := by
  obtain ⟨point, heap, resume, hrun, ⟨-, -, rfl⟩ | ⟨phase, phase', -, -, rfl⟩ | ⟨reply, -, -, rfl⟩⟩ :=
    Job.advance?_cases h
  · simp [Job.result?, Job.inPhase, hrun] at hover
  · simp [Job.result?, Job.inPhase, hrun] at hover
  · rfl

/-- The dispatcher does its tasks. -/
theorem exists_dispatchStep {w : World} (hc : w.Calm) {task : Task} {session : Session}
    (hs : w.session.perform? = some (task, session)) :
    ∃ w' reports, w.dispatchStep? = some (w', reports) := by
  unfold dispatchStep?
  rw [if_neg (by simp [hc.held]), hs]
  exact ⟨_, _, rfl⟩

/-- The dispatcher takes an event when nothing else is left. -/
theorem exists_dispatchStep_take {w : World} (hc : w.Calm) {session : Session}
    (hidle : w.session.perform? = none) (hs : w.session.take? = some session) :
    ∃ w' reports, w.dispatchStep? = some (w', reports) := by
  unfold dispatchStep?
  rw [if_neg (by simp [hc.held]), hidle, hs]
  exact ⟨_, _, rfl⟩

/-- What clients get to know of stops is no matter of the session. -/
theorem noteStop_frame (w : World) (task : Task) : (w.noteStop task).attached = w.attached ∧
    (w.noteStop task).traps = w.traps ∧ (w.noteStop task).held = w.held ∧
    SameCalls w.jobs (w.noteStop task).jobs ∧ (w.noteStop task).bridge = w.bridge := by
  unfold noteStop
  split
  · refine ⟨rfl, rfl, rfl, ⟨_, rfl, fun j => ?_⟩, rfl⟩
    split <;> exact ⟨rfl, rfl, rfl⟩
  · exact ⟨rfl, rfl, rfl, .refl _, rfl⟩

/-- The world after a step of the dispatcher that no client interrupts. -/
theorem dispatchStep?_calm {w w' : World} {reports : List Report} (hc : w.Calm)
    (h : w.dispatchStep? = some (w', reports)) :
    (∃ task session, w.session.perform? = some (task, session) ∧
        w' = { w with bridge := { session, engine := effectOnEngine w.engine task } }.noteStop task ∧
        reports = reportOf session task) ∨
      ∃ session, w.session.perform? = none ∧ w.session.take? = some session ∧
        w' = w.withSession session ∧ reports = [] := by
  unfold dispatchStep? at h
  rw [if_neg (by simp [hc.held])] at h
  split at h
  · next task session hperform =>
      rw [if_pos hc.attached] at h
      cases h
      have hquiet : ∀ w₀ : World, w₀.traps = [] → w₀.interrupt task = w₀ := by
        rintro ⟨bridge, attached, heaps, nextHeap, jobs, traps, held⟩ ht
        obtain rfl : traps = [] := ht
        unfold interrupt
        split <;> rfl
      refine .inl ⟨task, session, hperform, hquiet _ ?_, rfl⟩
      exact (noteStop_frame _ task).2.1.trans hc.traps
  · next hperform =>
      obtain ⟨session, htake, hw⟩ := Option.map_eq_some_iff.mp h
      cases hw
      exact .inr ⟨session, hperform, htake, rfl, rfl⟩

/-- **What a step of the dispatcher does** while no client interrupts it: a task, which the engine
may see, or the next event. -/
theorem dispatchStep?_cases {w w' : World} {reports : List Report} (hc : w.Calm)
    (h : w.dispatchStep? = some (w', reports)) :
    w'.Calm ∧ SameCalls w.jobs w'.jobs ∧
      ((∃ task session, w.session.perform? = some (task, session) ∧
          w'.bridge = { session, engine := effectOnEngine w.engine task }) ∨
        ∃ session, w.session.perform? = none ∧ w.session.take? = some session ∧
          w'.bridge = { w.bridge with session }) := by
  obtain ⟨task, session, hperform, rfl, -⟩ | ⟨session, hperform, htake, rfl, -⟩ := dispatchStep?_calm hc h
  · let next : World := { w with bridge := { session, engine := effectOnEngine w.engine task } }
    obtain ⟨hattached, htraps, hheld, hsame, hbridge⟩ := next.noteStop_frame task
    exact ⟨⟨hattached.trans hc.attached, htraps.trans hc.traps, hheld.trans hc.held⟩, hsame,
      .inl ⟨task, session, hperform, hbridge⟩⟩
  · exact ⟨⟨hc.attached, hc.traps, hc.held⟩, .refl _, .inr ⟨session, hperform, htake, rfl⟩⟩

/-! ### The scheduler makes moves -/

/-- **A job that the scheduler picks** makes a step among the others. -/
theorem jobStep?_cases {w w' : World} {reports : List Report} (h : w.jobStep? = some (w', reports)) :
    ∃ b before after j j', w.jobs = before ++ j :: after ∧ j.advance? w.bridge = some (b, j') ∧
      w' = w.advanced b before j' after := by
  obtain ⟨⟨b, before, j', after⟩, hstep, hw⟩ := Option.map_eq_some_iff.mp h
  obtain ⟨passed, j, hjobs, hbefore, hj⟩ := exists_job_of_stepJobs? hstep
  refine ⟨b, passed, after, j, j', hjobs, hj, ?_⟩
  unfold advanced
  rw [hbefore, List.append_nil] at hw
  dsimp only at hw
  rw [List.reverse_reverse] at hw
  cases hr : j'.result? with
  | none =>
      rw [hr] at hw
      exact (Prod.mk.inj hw).1.symm
  | some result =>
      rw [hr] at hw
      exact (Prod.mk.inj hw).1.symm

/-- **A step of the scheduler is a move**, where it does not take a command that ends everything. -/
theorem moves_of_step? {w w' : World} {reports : List Report} (hends : ¬ Ends w.session)
    (h : w.step? = some (w', reports)) : ∃ act, Moves w act w' ∧ act.IsStep := by
  unfold step? at h
  split at h
  · next next hd =>
      cases h
      exact ⟨_, .dispatch hd hends, trivial⟩
  · obtain ⟨b, before, after, j, j', hjobs, hj, rfl⟩ := jobStep?_cases h
    exact ⟨_, .step hjobs hj, trivial⟩

/-- What was seen before is no matter of the world that comes about. -/
theorem fst_settleFrom (w : World) (seen seen' : List Report) (limit : Nat) :
    (w.settleFrom seen limit).1 = (w.settleFrom seen' limit).1 := by
  induction limit generalizing w seen seen' with
  | zero => rfl
  | succ limit ih =>
      unfold settleFrom
      cases w.step? with
      | none => rfl
      | some next => exact ih next.1 _ _

/-- **The scheduler is one of the ways to move**, wherever the steps of dispatcher and jobs are free. -/
theorem execution_of_settleFrom {moves : World → Act → World → Prop} {start w : World}
    (hfree : ∀ {w act w'}, Moves w act w' → act.IsStep → moves w act w') {trace : List Act}
    (h : Execution moves start trace w) (limit : Nat)
    (hends : ∀ k < limit, ¬ Ends (w.settleFrom [] k).1.session) :
    ∃ acts, Execution moves start (trace ++ acts) (w.settleFrom [] limit).1 ∧
      ∀ act ∈ acts, act.IsStep := by
  induction limit generalizing trace w with
  | zero =>
      refine ⟨[], ?_, ?_⟩
      · rw [List.append_nil]
        exact h
      · intro act hact
        cases hact
  | succ limit ih =>
      cases hw : w.step? with
      | none =>
          rw [settleFrom, hw]
          refine ⟨[], ?_, ?_⟩
          · rw [List.append_nil]
            exact h
          · intro act hact
            cases hact
      | some next =>
          obtain ⟨w', reports⟩ := next
          have hnext (k : Nat) :
              (w.settleFrom [] (k + 1)).1 = (w'.settleFrom [] k).1 := by
            rw [settleFrom, hw]
            exact fst_settleFrom w' _ _ k
          obtain ⟨act, hmove, hstep⟩ := moves_of_step? (hends 0 (Nat.succ_pos limit)) hw
          have hends' (k : Nat) (hk : k < limit) : ¬ Ends (w'.settleFrom [] k).1.session := by
            rw [← hnext k]
            exact hends (k + 1) (Nat.succ_lt_succ hk)
          obtain ⟨acts, hrun, hsteps⟩ := ih (h.next (hfree hmove hstep)) hends'
          refine ⟨act :: acts, ?_, List.forall_mem_cons.mpr ⟨hstep, hsteps⟩⟩
          rw [hnext limit, List.append_cons]
          exact hrun

end World

end Pausepoint
