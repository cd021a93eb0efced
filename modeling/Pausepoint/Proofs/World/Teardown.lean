import Pausepoint.Proofs.Session.Shutdown
import Pausepoint.Proofs.World.Finality
import Pausepoint.Proofs.World.Unheld
import Pausepoint.Proofs.World.Wakeup

/-!
# Pausepoint.Proofs.World.Teardown

The end of a session leaves nobody waiting.

`teardown_leaves_nobody_waiting` is the main result, over every run in which anyone may do anything and the
dispatcher may end in any way. Once it is done, the queue is shut, the gate is shut and the engine is
closed; whoever calls after that is refused at once; and every call that is still in progress can always
make its next step, returns after a bounded number of steps of its own, and returns what was certain when
the dispatcher was done (`Engine.verdict`).

A report may be caught between its halves when the queue is closed: the gate has admitted it, and it is not
queued. `World.SplitStep` is the world with such reports, of calls and of others (`SplitWorld`).

Proof shape: `SplitWorld.Sound` is what every step keeps, with `Session.Shutting` for the order in which
things are shut; once the dispatcher is done, `keeps_verdict` is about one step more.
-/

namespace Pausepoint

open Pausepoint.Language

/-! ### Reports of jobs in halves -/

namespace Job

/-- The report that the next step of a job is, if it is one. -/
def report? (b : Bridge) (j : Job) : Option Notification :=
  match j.run with
  | .done _ => none
  | .ask point _ _ =>
      match j.phase with
      | none =>
          match point with
          | .started => some .engineStarted
          | .ended => if b.engine.closed = some .detached then none else some .engineTerminated
          | .load .. | .line .. => none
      | some (.reporting p) => some p.report
      | some (.confirming mode) => some (.resumed j.thread mode)
      | some (.excusing _) => some (.resumed j.thread .clientRequest)
      | some _ => none

/-- What a job does once its report was answered. -/
def conclude (b : Bridge) (reply : Reply) (j : Job) : Bridge × Job :=
  match j.phase with
  | some (.reporting p) =>
      match reply with
      | .ok () => (b, j.inPhase (.waiting p))
      | .error cause =>
          ({ b with engine := b.engine.dropSlot j.thread },
            j.inPhase (.returned (if b.engine.closed = some .detached then .ok () else .error cause)))
  | some (.confirming _) => (b, j.inPhase (.returned (.ok ())))
  | some (.excusing milliseconds) => (b, j.inPhase (.returned (.error (.resumeTimeout milliseconds))))
  | _ => (b, j.inPhase (.returned reply))

/-- Is the next step of a job a report? Whether it is one may depend on the engine. -/
def IsReporting (j : Job) : Prop :=
  ∃ b n, j.report? b = some n

theorem IsReporting.of_same {j j' : Job} (h : j.IsReporting) (hthread : j'.thread = j.thread)
    (hphase : j'.phase = j.phase) (hrun : j'.run = j.run) : j'.IsReporting := by
  obtain ⟨b, n, hn⟩ := h
  refine ⟨b, n, ?_⟩
  unfold report? at hn ⊢
  rwa [hthread, hphase, hrun]

theorem IsReporting.exists_run {j : Job} (h : j.IsReporting) :
    ∃ point heap resume, j.run = .ask point heap resume := by
  obtain ⟨b, n, hn⟩ := h
  unfold report? at hn
  split at hn
  · cases hn
  · next point heap resume hrun => exact ⟨point, heap, resume, hrun⟩

/-- Where a call goes once its report was answered. -/
inductive Concludes (e : Engine) (thread : ThreadId) (reply : Reply) : Option Phase → Engine → Phase → Prop
  | announced : Concludes e thread reply none e (.returned reply)
  | reported {p : Pause} (h : reply = .ok ()) : Concludes e thread reply (some (.reporting p)) e (.waiting p)
  | refused {p : Pause} {cause : Refusal} (h : reply = .error cause) :
      Concludes e thread reply (some (.reporting p)) (e.dropSlot thread)
        (.returned (if e.closed = some .detached then .ok () else .error cause))
  | confirmed (mode : Mode) : Concludes e thread reply (some (.confirming mode)) e (.returned (.ok ()))
  | excused (milliseconds : Nat) :
      Concludes e thread reply (some (.excusing milliseconds)) e
        (.returned (.error (.resumeTimeout milliseconds)))

/-- **What follows from an answer** changes the slot of the thread at most. -/
theorem conclude_cases {j : Job} (h : j.IsReporting) (b : Bridge) (reply : Reply) :
    ∃ e phase, j.conclude b reply = ({ b with engine := e }, j.inPhase phase) ∧
      Concludes b.engine j.thread reply j.phase e phase := by
  obtain ⟨b₀, n, hn⟩ := h
  unfold report? at hn
  split at hn
  · cases hn
  · unfold conclude
    split at hn
    · next hphase =>
        rw [hphase]
        exact ⟨_, _, rfl, .announced⟩
    · next p hphase =>
        rw [hphase]
        cases reply with
        | ok => exact ⟨_, _, rfl, .reported rfl⟩
        | error cause => exact ⟨_, _, rfl, .refused rfl⟩
    · next mode hphase =>
        rw [hphase]
        exact ⟨_, _, rfl, .confirmed mode⟩
    · next milliseconds hphase =>
        rw [hphase]
        exact ⟨_, _, rfl, .excused milliseconds⟩
    · cases hn

theorem Concludes.frame {e e' : Engine} {thread : ThreadId} {reply : Reply} {phase : Option Phase}
    {phase' : Phase} (h : Concludes e thread reply phase e' phase') :
    e'.closed = e.closed ∧ e'.resumeTimeout = e.resumeTimeout ∧
      ∀ other, other ≠ thread → e'.slots.get? other = e.slots.get? other := by
  cases h with
  | announced | reported | confirmed | excused => exact ⟨rfl, rfl, fun _ _ => rfl⟩
  | refused =>
      refine ⟨rfl, rfl, fun other hne => ?_⟩
      rw [World.slots_dropSlot, if_neg hne]

/-- Nobody gives up by that. -/
theorem Concludes.patient {e e' : Engine} {thread : ThreadId} {reply : Reply} {phase : Option Phase}
    {phase' : Phase} (h : Concludes e thread reply phase e' phase') (milliseconds : Nat) :
    phase' ≠ .abandoning milliseconds ∧ phase' ≠ .excusing milliseconds := by
  cases h <;> exact ⟨by simp, by simp⟩

end Job

/-! ### The world with reports in halves -/

/-- A world in which some reports were admitted by the gate and are not queued yet: reports of calls, by
their threads, and reports of others. -/
structure SplitWorld where
  world : World
  calls : List (ThreadId × Notification) := []
  others : List Notification := []

/-- One step of anyone. A report is made in one piece or in halves; whoever is between the halves does
nothing else. A client that handles a command may fail before it has passed the command on to the engine,
like any other client code, and after that. -/
inductive SplitStep : SplitWorld → Option World.Act → SplitWorld → Prop
  | whole {x : SplitWorld} {act : Option World.Act} {w : World} (h : World.AnyStep x.world act w)
      (hfree : ∀ thread before after, act = some (.step thread before after) →
        thread ∉ x.calls.map Prod.fst) :
      SplitStep x act { x with world := w }
  | failLate {x : SplitWorld} {w : World} {reports : List Report} {c : Command} (message : String)
      (h : x.world.dispatchStep? = some (w, reports))
      (hhead : x.world.session.worker.agenda.head? = some (.forward c)) :
      SplitStep x (some (.dispatch (some (.forward c))))
        { x with world := w.withSession (w.session.fail message) }
  | letIn {x : SplitWorld} {n : Notification} {session : Session}
      (h : x.world.session.letIn n = .ok session) :
      SplitStep x none { x with world := x.world.withSession session, others := n :: x.others }
  | enqueue {x : SplitWorld} {n : Notification} (h : n ∈ x.others) :
      SplitStep x none
        { x with world := x.world.withSession (x.world.session.enqueue n).2, others := x.others.erase n }
  | letInCall {x : SplitWorld} {j : Job} {n : Notification} {session : Session} (hj : j ∈ x.world.jobs)
      (hfree : j.thread ∉ x.calls.map Prod.fst) (hn : j.report? x.world.bridge = some n)
      (h : x.world.session.letIn n = .ok session) :
      SplitStep x none
        { x with world := x.world.withSession session, calls := (j.thread, n) :: x.calls }
  | enqueueCall {x : SplitWorld} {before after : List Job} {j j' : Job} {b : Bridge} {n : Notification}
      (hjobs : x.world.jobs = before ++ j :: after) (hn : (j.thread, n) ∈ x.calls)
      (h : j.conclude { x.world.bridge with session := (x.world.session.enqueue n).2 }
        (x.world.session.enqueue n).1 = (b, j')) :
      SplitStep x (some (.step j.thread j.phase j'.phase))
        { x with world := x.world.advanced b before j' after, calls := x.calls.erase (j.thread, n) }

/-- Where no report is made in halves, nothing is new. -/
theorem splitStep_of_anyStep {start w : World} {trace : List (Option World.Act)}
    (h : Execution World.AnyStep start trace w) : Execution SplitStep { world := start } trace { world := w } := by
  induction h with
  | start => exact .start
  | next before last ih => exact ih.next (.whole last fun _ _ _ _ => List.not_mem_nil)

namespace SplitWorld

/-- **The invariant** of every run. -/
structure Sound (x : SplitWorld) : Prop where
  attached : x.world.attached = true
  /-- Nobody gives up waiting, or has done so. -/
  untimed : x.world.engine.resumeTimeout = none
  patient : ∀ j ∈ x.world.jobs, ∀ milliseconds,
    j.phase ≠ some (.abandoning milliseconds) ∧ j.phase ≠ some (.excusing milliseconds)
  distinct : (x.world.jobs.map Job.thread).Nodup
  asks : ∀ j ∈ x.world.jobs, j.Asks
  shutting : x.world.session.Shutting (x.world.engine.closed.isSome = true)
  /-- Who is between the halves of a report has a job that makes one. -/
  reporting : ∀ call ∈ x.calls, ∃ j ∈ x.world.jobs, j.thread = call.1 ∧ j.IsReporting
  once : (x.calls.map Prod.fst).Nodup

theorem sound_create {settings : DebuggerSettings} (h : settings.resumeTimeout = none) :
    Sound { world := .create settings true } where
  attached := rfl
  untimed := h
  patient _ hj := absurd hj List.not_mem_nil
  distinct := List.nodup_nil
  asks _ hj := absurd hj List.not_mem_nil
  shutting := Session.shutting_create settings _
  reporting _ hcall := absurd hcall List.not_mem_nil
  once := List.nodup_nil

variable {x y : SplitWorld}

/-- A job that makes a step. -/
theorem Sound.advanced (h : x.Sound) {b : Bridge} {before after : List Job} {j j' : Job}
    (hjobs : x.world.jobs = before ++ j :: after) (hthread : j'.thread = j.thread) (hasks : j'.Asks)
    (hpatient : ∀ milliseconds, j'.phase ≠ some (.abandoning milliseconds) ∧
      j'.phase ≠ some (.excusing milliseconds))
    (huntimed : b.engine.resumeTimeout = none)
    (hshutting : b.session.Shutting (b.engine.closed.isSome = true))
    {calls : List (ThreadId × Notification)} (hsub : calls.Sublist x.calls)
    (hfree : j.thread ∉ calls.map Prod.fst) :
    Sound { x with world := x.world.advanced b before j' after, calls } := by
  have hbridge : (x.world.advanced b before j' after).bridge = b := World.bridge_advanced ..
  refine ⟨?_, ?_, ?_, ?_, ?_, ?_, fun call hcall => ?_, h.once.sublist (hsub.map _)⟩
  · show (x.world.advanced b before j' after).attached = true
    unfold World.advanced World.keepScopes
    split <;> exact h.attached
  · show (x.world.advanced b before j' after).bridge.engine.resumeTimeout = none
    rw [hbridge]
    exact huntimed
  · exact World.forall_jobs_advanced (P := fun k => ∀ milliseconds,
      k.phase ≠ some (.abandoning milliseconds) ∧ k.phase ≠ some (.excusing milliseconds)) hjobs hpatient
      h.patient
  · exact World.nodup_advanced hjobs hthread h.distinct
  · exact World.forall_jobs_advanced hjobs hasks h.asks
  · show (x.world.advanced b before j' after).bridge.session.Shutting
      ((x.world.advanced b before j' after).bridge.engine.closed.isSome = true)
    rw [hbridge]
    exact hshutting
  · obtain ⟨k, hk, hthread', hreporting⟩ := h.reporting call (hsub.mem hcall)
    have hne : k ≠ j := by
      rintro rfl
      exact hfree (hthread' ▸ List.mem_map_of_mem hcall)
    exact ⟨k, World.mem_jobs_advanced_of_ne hjobs hk hne, hthread', hreporting⟩

/-- Whoever changes nothing but the session, and keeps it shutting. -/
theorem Sound.withSession (h : x.Sound) {session : Session}
    (hs : session.Shutting (x.world.engine.closed.isSome = true)) (others : List Notification) :
    Sound { x with world := x.world.withSession session, others } :=
  ⟨h.attached, h.untimed, h.patient, h.distinct, h.asks, hs, h.reporting, h.once⟩

theorem Sound.dispatch (h : x.Sound) {w : World} {reports : List Report}
    (hd : x.world.dispatchStep? = some (w, reports)) : Sound { x with world := w } := by
  obtain ⟨hattached, hsame, hstep⟩ := World.dispatchStep?_frame hd
  have hboth : w.engine.resumeTimeout = x.world.engine.resumeTimeout ∧
      w.session.Shutting (w.engine.closed.isSome = true) := by
    obtain ⟨task, session, hperform, hsession, hengine⟩ | ⟨-, htake, hengine⟩ := hstep
    · rw [if_pos h.attached] at hengine
      rw [hengine]
      refine ⟨Engine.timeout_effect _ task, ?_⟩
      obtain hs | ⟨hfatal, message, hs⟩ := hsession
      · rw [hs]
        exact h.shutting.perform hperform (Engine.isSome_closed_effect _ task)
      · rw [hs]
        refine .fail (h.shutting.awake hperform fun exit htask => ?_) message
        rw [htask] at hfatal
        cases hfatal
    · rw [hengine]
      exact ⟨rfl, .of_take htake⟩
  obtain ⟨f, hjobs, hf⟩ := id hsame
  refine ⟨hattached.trans h.attached, hboth.1.trans h.untimed, ?_, ?_, hsame.asks h.asks, hboth.2,
    fun call hcall => ?_, h.once⟩
  · show ∀ j ∈ w.jobs, _
    rw [hjobs]
    intro j hj
    obtain ⟨k, hk, rfl⟩ := List.mem_map.mp hj
    rw [(hf k).2.1]
    exact h.patient k hk
  · show (w.jobs.map Job.thread).Nodup
    rw [hsame.threads]
    exact h.distinct
  · obtain ⟨k, hk, hthread, hreporting⟩ := h.reporting call hcall
    refine ⟨f k, ?_, (hf k).1.trans hthread, hreporting.of_same (hf k).1 (hf k).2.1 (hf k).2.2⟩
    show f k ∈ w.jobs
    rw [hjobs]
    exact List.mem_map_of_mem hk

/-- The dispatcher goes on after it has passed a command on. -/
theorem Sound.awake_of_forward (h : x.Sound) {w : World} {reports : List Report} {c : Command}
    (hd : x.world.dispatchStep? = some (w, reports))
    (hhead : x.world.session.worker.agenda.head? = some (.forward c)) :
    w.session.worker.exit = none := by
  obtain ⟨rest, hagenda⟩ := List.head?_eq_some_iff.mp hhead
  obtain ⟨-, -, ⟨task, session, hperform, hsession, -⟩ | ⟨-, htake, -⟩⟩ := World.dispatchStep?_frame hd
  · obtain ⟨others, hagenda', -⟩ := Session.perform?_cases hperform
    obtain ⟨rfl, -⟩ := List.cons.inj (hagenda.symm.trans hagenda')
    have hs : w.session = session := hsession.resolve_right fun hf => by cases hf.1
    rw [hs]
    exact h.shutting.awake hperform nofun
  · rw [(Session.take?_cases htake).1] at hagenda
    cases hagenda

/-- The step of a call does nothing to what is shut, and nobody gives up. -/
theorem shutting_of_callStep {b b' : Bridge} {thread : ThreadId} {phase phase' : Option Phase}
    (h : CallStep b thread phase b' phase')
    (hs : b.session.Shutting (b.engine.closed.isSome = true))
    (hpatient : ∀ milliseconds, phase ≠ some (.abandoning milliseconds)) :
    b'.session.Shutting (b'.engine.closed.isSome = true) ∧
      b'.engine.resumeTimeout = b.engine.resumeTimeout ∧
      ∀ milliseconds, phase' ≠ some (.abandoning milliseconds) ∧
        phase' ≠ some (.excusing milliseconds) := by
  rw [h.frame.2]
  cases h with
  | announce => exact ⟨hs.notify _, rfl, fun _ => ⟨by simp, by simp⟩⟩
  | report | confirm | excuse => exact ⟨hs.notify _, rfl, fun _ => ⟨by simp, by simp⟩⟩
  | unreported => exact ⟨hs.notify _, rfl, fun _ => ⟨by simp, by simp⟩⟩
  | silent | enter | refuse | pass | pause | openSlot | closed | leave =>
      exact ⟨hs, rfl, fun _ => ⟨by simp, by simp⟩⟩
  | @takeUp p mode =>
      exact ⟨hs, (World.takeUp_frame b.engine thread p mode).2.2, fun _ => ⟨by simp, by simp⟩⟩
  | abandon milliseconds => exact absurd rfl (hpatient milliseconds)

theorem Sound.begin (h : x.Sound) {j : Job} (nextHeap : Nat) (hbegins : j.Begins)
    (hnew : j.thread ∉ x.world.jobs.map Job.thread) :
    Sound { x with world := { x.world with nextHeap }.begin j } := by
  have hbridge : ({ x.world with nextHeap }.begin j).bridge = x.world.bridge := World.bridge_begin _ j
  have hjobs : ({ x.world with nextHeap }.begin j).jobs = x.world.jobs ++ [j] := World.jobs_begin _ j
  refine ⟨?_, ?_, ?_, ?_, ?_, ?_, fun call hcall => ?_, h.once⟩
  · show ({ x.world with nextHeap }.begin j).attached = true
    unfold World.begin World.keepScopes
    split <;> exact h.attached
  · show ({ x.world with nextHeap }.begin j).bridge.engine.resumeTimeout = none
    rw [hbridge]
    exact h.untimed
  · show ∀ k ∈ ({ x.world with nextHeap }.begin j).jobs, _
    rw [hjobs]
    refine List.forall_mem_append.mpr ⟨h.patient, List.forall_mem_singleton.mpr fun milliseconds => ?_⟩
    rw [hbegins.phase]
    exact ⟨by simp, by simp⟩
  · show (({ x.world with nextHeap }.begin j).jobs.map Job.thread).Nodup
    rw [hjobs, List.map_append, List.nodup_append]
    refine ⟨h.distinct, List.nodup_singleton _, fun thread hthread other hother he => hnew ?_⟩
    rw [List.mem_singleton.mp hother] at he
    exact he ▸ hthread
  · show ∀ k ∈ ({ x.world with nextHeap }.begin j).jobs, k.Asks
    rw [hjobs]
    refine List.forall_mem_append.mpr ⟨h.asks, List.forall_mem_singleton.mpr fun hphase => ?_⟩
    rw [hbegins.phase] at hphase
    cases hphase
  · show ({ x.world with nextHeap }.begin j).bridge.session.Shutting
      (({ x.world with nextHeap }.begin j).bridge.engine.closed.isSome = true)
    rw [hbridge]
    exact h.shutting
  · obtain ⟨k, hk, hrest⟩ := h.reporting call hcall
    refine ⟨k, ?_, hrest⟩
    show k ∈ ({ x.world with nextHeap }.begin j).jobs
    rw [hjobs]
    exact List.mem_append_left _ hk

/-- Who is between the halves of a report is about to hear of it. -/
theorem Sound.isReporting (h : x.Sound) {j : Job} (hj : j ∈ x.world.jobs) {n : Notification}
    (hn : (j.thread, n) ∈ x.calls) : j.IsReporting := by
  obtain ⟨k, hk, hthread, hreporting⟩ := h.reporting _ hn
  obtain rfl : k = j := List.inj_on_of_nodup_map h.distinct hk hj hthread
  exact hreporting

/-- Nobody is between the halves of two reports. -/
theorem Sound.free_of_erase (h : x.Sound) {thread : ThreadId} {n : Notification}
    (hn : (thread, n) ∈ x.calls) : thread ∉ (x.calls.erase (thread, n)).map Prod.fst := by
  intro hmem
  obtain ⟨call, hcall, rfl⟩ := List.mem_map.mp hmem
  obtain ⟨hne, hin⟩ := (List.Nodup.mem_erase_iff (List.Nodup.of_map _ h.once)).mp hcall
  exact hne (List.inj_on_of_nodup_map h.once hin hn rfl)

/-- **Every step keeps the invariant.** -/
theorem Sound.step (h : x.Sound) {act : Option World.Act} (hs : SplitStep x act y) : y.Sound := by
  cases hs with
  | whole hany hfree =>
      cases hany with
      | dispatch hd => exact h.dispatch hd
      | @step b before after j j' hjobs hj =>
          obtain ⟨hcall, hthread⟩ := callStep_of_job hj
          have hmem : j ∈ x.world.jobs := by simp [hjobs]
          obtain ⟨hshutting, htimeout, hpatient⟩ := shutting_of_callStep hcall h.shutting
            fun milliseconds => (h.patient j hmem milliseconds).1
          exact h.advanced hjobs hthread (asks_of_advance hj) hpatient (htimeout.trans h.untimed) hshutting
            (List.Sublist.refl _) (hfree _ _ _ rfl)
      | @giveUp b before after j j' hjobs hj =>
          obtain ⟨p, milliseconds, -, htime, -⟩ := giveUp?_cases hj
          -- There is no bound on pauses, so nobody gives up.
          have hnone : x.world.bridge.engine.resumeTimeout = none := h.untimed
          rw [hnone] at htime
          cases htime
      | @begin j nextHeap hbegins hnew => exact h.begin nextHeap hbegins hnew
      | call c => exact h.withSession (h.shutting.call c) _
      | report n => exact h.withSession (h.shutting.notify n) _
      | abandonPause thread => exact h.withSession (h.shutting.abandonPause thread) _
      | interrupt traps held =>
          exact ⟨h.attached, h.untimed, h.patient, h.distinct, h.asks, h.shutting, h.reporting, h.once⟩
  | @failLate w reports c message hd hhead =>
      exact (h.dispatch hd).withSession (.fail (h.awake_of_forward hd hhead) message) _
  | letIn hs => exact h.withSession (h.shutting.letIn hs) _
  | enqueue hn => exact h.withSession (h.shutting.enqueue _) _
  | @letInCall j n session hj hfree hn hs =>
      refine ⟨h.attached, h.untimed, h.patient, h.distinct, h.asks, h.shutting.letIn hs, ?_, ?_⟩
      · exact List.forall_mem_cons.mpr ⟨⟨j, hj, rfl, _, _, hn⟩, h.reporting⟩
      · exact List.nodup_cons.mpr ⟨hfree, h.once⟩
  | @enqueueCall before after j j' b n hjobs hn hconclude =>
      have hmem : j ∈ x.world.jobs := by simp [hjobs]
      have hreporting := h.isReporting hmem hn
      obtain ⟨e, phase, hsame, hcase⟩ := Job.conclude_cases hreporting
        { x.world.bridge with session := (x.world.session.enqueue n).2 } (x.world.session.enqueue n).1
      obtain ⟨rfl, rfl⟩ := Prod.mk.inj (hconclude.symm.trans hsame)
      obtain ⟨hclosed, htimeout, -⟩ := hcase.frame
      refine h.advanced hjobs (rfl : (j.inPhase phase).thread = j.thread)
        (fun _ => hreporting.exists_run) (fun milliseconds => ?_) ?_ ?_ List.erase_sublist
        (h.free_of_erase hn)
      · obtain ⟨hpatient, hpatient'⟩ := hcase.patient milliseconds
        exact ⟨by simpa [Job.inPhase] using hpatient, by simpa [Job.inPhase] using hpatient'⟩
      · exact htimeout.trans h.untimed
      · show ((x.world.session.enqueue n).2).Shutting (e.closed.isSome = true)
        rw [hclosed]
        exact h.shutting.enqueue n

/-! ### Once the dispatcher is done -/

/-- The dispatcher is done. -/
def Over (x : SplitWorld) : Prop :=
  x.world.session.exit?.isSome = true

end SplitWorld

namespace Engine

/-- What a closed engine tells whoever calls. -/
def answer (e : Engine) : Reply :=
  match e.closed with
  | some c => c.reply
  | none => .ok ()

/-- **What a call will return** once the dispatcher is done: its decision if one is there, the end of the
session if it waits without one, and the refusal of its report if it has not made it. -/
def verdict (e : Engine) (thread : ThreadId) : Phase → Reply
  | .entering _ => e.answer
  | .opening _ | .reporting _ => if e.closed = some .detached then .ok () else .error .closed
  | .waiting _ =>
      match e.slots.get? thread with
      | some (some _) => .ok ()
      | _ => e.answer
  | .confirming _ => .ok ()
  | .abandoning milliseconds | .excusing milliseconds => .error (.resumeTimeout milliseconds)
  | .returned reply => reply

theorem verdict_congr {e e' : Engine} {thread : ThreadId} (hclosed : e'.closed = e.closed)
    (hslot : e'.slots.get? thread = e.slots.get? thread) (phase : Phase) :
    e'.verdict thread phase = e.verdict thread phase := by
  cases phase <;> simp only [verdict, answer, hclosed, hslot]

/-- **A step of a call** goes where its verdict says, once gate and engine are closed. -/
theorem verdict_of_callStep {b b' : Bridge} {thread : ThreadId} {phase phase' : Phase} {c : Closed}
    (hgate : b.session.gate.IsShut) (hclosed : b.engine.closed = some c)
    (h : CallStep b thread (some phase) b' (some phase')) :
    b'.engine.verdict thread phase' = b.engine.verdict thread phase := by
  have hanswer : b.engine.answer = c.reply := by rw [answer, hclosed]
  -- Whatever a call reports from now on is refused.
  have hrefused (n : Notification) : (b.notify n).1 = .error .closed := by
    rw [Bridge.notify_fst, Session.notify, hgate.accept]
  cases h with
  | @refuse r cause hd =>
      rw [verdict, verdict, hanswer]
      rw [decide, hclosed] at hd
      cases c <;> cases hd
      rfl
  | @pass r hd =>
      rw [verdict, verdict, hanswer]
      rw [decide, hclosed] at hd
      cases c <;> cases hd
      rfl
  | @pause r p hd =>
      rw [decide, hclosed] at hd
      cases c <;> cases hd
  | openSlot p => rfl
  | report hn =>
      rw [hrefused] at hn
      cases hn
  | unreported hn =>
      rw [hrefused] at hn
      cases hn
      rfl
  | @takeUp p mode hwake =>
      rw [verdict, verdict, decided_of_wakening hwake]
  | @closed p c' hwake =>
      obtain rfl := Option.some.inj (hclosed.symm.trans (closed_of_wakening hwake))
      rw [verdict, verdict, hanswer]
      split
      · next mode hslot =>
          rw [wakening?, hslot] at hwake
          cases hwake
      · rfl
  | confirm mode => rfl
  | abandon milliseconds => rfl
  | excuse milliseconds => rfl

end Engine

/-- So does what follows from an answer. -/
theorem Job.Concludes.verdict {e e' : Engine} {thread : ThreadId} {phase phase' : Phase}
    (h : Job.Concludes e thread (.error .closed) (some phase) e' phase') :
    e'.verdict thread phase' = e.verdict thread phase ∧ phase'.stepsLeft < phase.stepsLeft := by
  cases h with
  | reported hr => cases hr
  | refused hr =>
      cases hr
      exact ⟨rfl, by simp [Phase.stepsLeft]⟩
  | confirmed | excused => exact ⟨rfl, by simp [Phase.stepsLeft]⟩

namespace SplitWorld

/-- Did the job of a thread make this step? -/
def isBy (thread : ThreadId) : Option World.Act → Bool
  | some (.step other _ _) => decide (other = thread)
  | _ => false

/-- How many steps the job of a thread made. -/
def stepsOf (thread : ThreadId) (acts : List (Option World.Act)) : Nat :=
  acts.countP (isBy thread)

/-- From one moment to another the call of a thread goes where its verdict says, if it goes anywhere. -/
def Nears (x y : SplitWorld) (acts : List (Option World.Act)) (thread : ThreadId) (phase : Phase) : Prop :=
  ∃ phase', phaseOf y.world.jobs thread = some phase' ∧
    y.world.engine.verdict thread phase' = x.world.engine.verdict thread phase ∧
    stepsOf thread acts + phase'.stepsLeft ≤ phase.stepsLeft

variable {x y : SplitWorld}

theorem Sound.shut (h : x.Sound) (hover : x.Over) : x.world.session.worker.agenda = [] ∧
    x.world.session.queue.IsShut ∧ x.world.session.gate.IsShut ∧ ∃ c, x.world.engine.closed = some c := by
  obtain ⟨hagenda, hqueue, hgate, hclosed⟩ := h.shutting.shut hover
  exact ⟨hagenda, hqueue, hgate, Option.isSome_iff_exists.mp hclosed⟩

/-- A dispatcher that is done does nothing. -/
theorem Sound.dispatchStep? (h : x.Sound) (hover : x.Over) : x.world.dispatchStep? = none := by
  obtain ⟨hagenda, -⟩ := h.shut hover
  have hperform : x.world.session.perform? = none := by
    rw [Session.perform?, hagenda]
  have htake : x.world.session.take? = none := by
    refine Option.eq_none_iff_forall_ne_some.mpr fun next htake => ?_
    obtain ⟨-, hawake, -⟩ := Session.take?_eq_some.mp htake
    rw [Over, Session.exit?, hawake] at hover
    cases hover
  unfold World.dispatchStep?
  rw [hperform, htake]
  split <;> rfl

/-- Where the calls of other threads are after one has made a step. -/
theorem nears_of_others {acts : List (Option World.Act)} {thread : ThreadId} {phase : Phase}
    (hphase : phaseOf x.world.jobs thread = some phase)
    (hsame : phaseOf y.world.jobs thread = phaseOf x.world.jobs thread)
    (hclosed : y.world.engine.closed = x.world.engine.closed)
    (hslot : y.world.engine.slots.get? thread = x.world.engine.slots.get? thread)
    (hnone : stepsOf thread acts = 0) : Nears x y acts thread phase := by
  exact ⟨phase, hsame.trans hphase, Engine.verdict_congr hclosed hslot phase,
    Nat.le_of_eq (by rw [hnone, Nat.zero_add])⟩

/-- What a job does that makes a step. -/
theorem Sound.nears_of_step (h : x.Sound) {b : Bridge} {before after : List Job} {j j' : Job}
    {calls : List (ThreadId × Notification)} (hjobs : x.world.jobs = before ++ j :: after)
    (hthread : j'.thread = j.thread) (hresult : j'.result?.isSome → j'.phase = none)
    (hclosed : b.engine.closed = x.world.engine.closed)
    (hslots : ∀ other, other ≠ j.thread → b.engine.slots.get? other = x.world.engine.slots.get? other)
    (hown : ∀ phase phase', j.phase = some phase → j'.phase = some phase' →
      b.engine.verdict j.thread phase' = x.world.engine.verdict j.thread phase ∧
        phase'.stepsLeft < phase.stepsLeft)
    {thread : ThreadId} {phase : Phase} (hphase : phaseOf x.world.jobs thread = some phase)
    (hstay : ∀ p, some (World.Act.step j.thread j.phase j'.phase) ≠ some (.step thread p none)) :
    Nears x { x with world := x.world.advanced b before j' after, calls }
      [some (.step j.thread j.phase j'.phase)] thread phase := by
  have hafter := World.phaseOf_advanced (b := b) hjobs hthread hresult h.distinct thread
  have hengine : (x.world.advanced b before j' after).engine = b.engine :=
    congrArg Bridge.engine (World.bridge_advanced ..)
  -- Its own step counts and brings it closer; one of another thread does neither.
  by_cases he : thread = j.thread
  · subst he
    have hmem : j ∈ x.world.jobs := by simp [hjobs]
    rw [phaseOf_of_mem h.distinct hmem] at hphase
    rw [if_pos rfl] at hafter
    cases hphase' : j'.phase with
    | none => exact absurd (by rw [hphase']) (hstay j.phase)
    | some phase' =>
        obtain ⟨hverdict, hless⟩ := hown phase phase' hphase hphase'
        refine ⟨phase', hafter.trans hphase', ?_, ?_⟩
        · rw [hengine]
          exact hverdict
        · simp only [stepsOf, List.countP_cons, List.countP_nil, isBy]
          simpa using Nat.add_comm 1 _ ▸ hless
  · rw [if_neg he] at hafter
    refine nears_of_others hphase hafter ?_ ?_ ?_
    · show (x.world.advanced b before j' after).engine.closed = _
      rw [hengine]
      exact hclosed
    · show (x.world.advanced b before j' after).engine.slots.get? thread = _
      rw [hengine]
      exact hslots thread he
    · simpa [stepsOf, isBy] using Ne.symm he

/-- **Once the dispatcher is done**, whoever makes a step, it stays so, and every call nears its verdict as
long as its caller does not leave with the reply. -/
theorem Sound.after (h : x.Sound) (hover : x.Over) {act : Option World.Act} (hs : SplitStep x act y) :
    y.Over ∧ ∀ thread phase, phaseOf x.world.jobs thread = some phase →
      (∀ p, act ≠ some (.step thread p none)) → Nears x y [act] thread phase := by
  obtain ⟨-, hqueue, hgate, c, hclosed⟩ := h.shut hover
  -- Moves that leave the jobs, the worker and the engine alone bring nobody further, and nobody back.
  have hidle {y : SplitWorld} {act : Option World.Act} (hworker : y.world.session.worker = x.world.session.worker)
      (hjobs : ∀ thread, phaseOf y.world.jobs thread = phaseOf x.world.jobs thread)
      (hengine : y.world.engine = x.world.engine) (hact : ∀ thread, isBy thread act = false) :
      y.Over ∧ ∀ thread phase, phaseOf x.world.jobs thread = some phase →
        (∀ p, act ≠ some (.step thread p none)) → Nears x y [act] thread phase := by
    refine ⟨?_, fun thread phase hphase _ => ?_⟩
    · rw [Over, Session.exit?, hworker]
      exact hover
    · exact nears_of_others hphase (hjobs thread) (by rw [hengine]) (by rw [hengine])
        (by simp [stepsOf, hact thread])
  cases hs with
  | whole hany hfree =>
      cases hany with
      | dispatch hd =>
          rw [h.dispatchStep? hover] at hd
          cases hd
      | @step b before after j j' hjobs hj =>
          obtain ⟨hcall, hthread⟩ := callStep_of_job hj
          obtain ⟨hworker, hsame⟩ := hcall.frame
          refine ⟨?_, fun thread phase hphase hstay => h.nears_of_step hjobs hthread
            (World.phase_of_result hj) hsame (fun other hne => World.slots_step hcall hne)
            (fun p p' hp hp' => ?_) hphase hstay⟩
          · show ((x.world.advanced b before j' after).bridge.session.exit?).isSome = true
            rw [World.bridge_advanced, Session.exit?, hworker]
            exact hover
          · rw [hp, hp'] at hcall
            exact ⟨Engine.verdict_of_callStep hgate hclosed hcall, stepsLeft_of_callStep hcall⟩
      | giveUp hjobs hj =>
          obtain ⟨p, milliseconds, -, htime, -⟩ := giveUp?_cases hj
          have hnone : x.world.bridge.engine.resumeTimeout = none := h.untimed
          rw [hnone] at htime
          cases htime
      | @begin j nextHeap hbegins hnew =>
          have hbridge : ({ x.world with nextHeap }.begin j).bridge = x.world.bridge :=
            World.bridge_begin _ j
          refine hidle ?_ (fun thread => ?_) (congrArg Bridge.engine hbridge) fun _ => rfl
          · exact congrArg (fun b : Bridge => b.session.worker) hbridge
          · show phaseOf ({ x.world with nextHeap }.begin j).jobs thread = _
            rw [World.jobs_begin]
            exact phaseOf_snoc hbegins.phase hnew thread
      | call c => exact hidle (x.world.session.worker_call c) (fun _ => rfl) rfl fun _ => rfl
      | report n => exact hidle (x.world.session.notify_frame n).2.1 (fun _ => rfl) rfl fun _ => rfl
      | abandonPause | interrupt => exact hidle rfl (fun _ => rfl) rfl fun _ => rfl
  | failLate _ hd =>
      rw [h.dispatchStep? hover] at hd
      cases hd
  | letIn hs | letInCall _ _ _ hs =>
      obtain ⟨gate, -, rfl⟩ := Session.letIn_frame hs
      exact hidle rfl (fun _ => rfl) rfl fun _ => rfl
  | enqueue => exact hidle (Session.worker_enqueue _ _) (fun _ => rfl) rfl fun _ => rfl
  | @enqueueCall before after j j' b n hjobs hn hconclude =>
      have hmem : j ∈ x.world.jobs := by simp [hjobs]
      have hreporting := h.isReporting hmem hn
      -- The queue is closed, so what was admitted before is refused now.
      have hreply : (x.world.session.enqueue n).1 = .error .closed := by
        rw [Session.enqueue_of_isShut hqueue]
      obtain ⟨e, next, hsame, hcase⟩ := Job.conclude_cases hreporting
        { x.world.bridge with session := (x.world.session.enqueue n).2 } (x.world.session.enqueue n).1
      obtain ⟨rfl, rfl⟩ := Prod.mk.inj (hconclude.symm.trans hsame)
      obtain ⟨hkept, -, hslots⟩ := hcase.frame
      rw [hreply] at hcase
      refine ⟨?_, fun thread phase hphase hstay => h.nears_of_step hjobs
        (rfl : (j.inPhase next).thread = j.thread) (fun hresult => ?_) hkept hslots
        (fun p p' hp hp' => ?_) hphase hstay⟩
      · show ((x.world.advanced _ before (j.inPhase next) after).bridge.session.exit?).isSome = true
        rw [World.bridge_advanced, Session.exit?, Session.worker_enqueue]
        exact hover
      · obtain ⟨point, heap, resume, hrun⟩ := hreporting.exists_run
        simp [Job.result?, Job.inPhase, hrun] at hresult
      · obtain rfl : next = p' := Option.some.inj hp'
        rw [hp] at hcase
        exact hcase.verdict

/-- **What is left** once the dispatcher is done. -/
structure TornDown (x : SplitWorld) : Prop where
  queue : x.world.session.queue.IsShut
  gate : x.world.session.gate.IsShut
  /-- Whoever reports something is refused, and so is whoever was admitted before. -/
  reports : ∀ n, x.world.session.notify n = (.error .closed, x.world.session) ∧
    (x.world.session.enqueue n).1 = .error .closed
  /-- Who calls before a script or a line goes on at once if the engine is detached and is told to end
  otherwise, and nothing is reported. -/
  calls : ∃ c, x.world.engine.closed = some c ∧ ∀ thread r,
    (Phase.entering r).advance? x.world.bridge thread = some (x.world.bridge, .returned c.reply)

theorem Sound.tornDown (h : x.Sound) (hover : x.Over) : x.TornDown := by
  obtain ⟨-, hqueue, hgate, c, hclosed⟩ := h.shut hover
  refine ⟨hqueue, hgate, fun n => ⟨?_, ?_⟩, c, hclosed, fun thread r => ?_⟩
  · rw [Session.notify, hgate.accept]
  · rw [Session.enqueue_of_isShut hqueue]
  · have hengine : x.world.bridge.engine.closed = some c := hclosed
    rw [Phase.advance?, Engine.decide, hengine]
    cases c <;> rfl

/-- A call that has not returned makes its next step: the second half of a report that was admitted, or a
step as ever. -/
theorem Sound.exists_step (h : x.Sound) (hover : x.Over) {thread : ThreadId} {phase : Phase}
    (hphase : phaseOf x.world.jobs thread = some phase) (hne : ∀ reply, phase ≠ .returned reply) :
    ∃ y phase', SplitStep x (some (.step thread (some phase) (some phase'))) y := by
  obtain ⟨-, -, -, c, hclosed⟩ := h.shut hover
  obtain ⟨j, hj, rfl, hphase'⟩ := exists_job_of_phaseOf hphase
  obtain ⟨before, after, hjobs⟩ := List.append_of_mem hj
  by_cases hcall : j.thread ∈ x.calls.map Prod.fst
  · obtain ⟨⟨thread, n⟩, hn, hthread⟩ := List.mem_map.mp hcall
    obtain rfl : thread = j.thread := hthread
    obtain ⟨e, next, hconclude, -⟩ := Job.conclude_cases (h.isReporting hj hn)
      { x.world.bridge with session := (x.world.session.enqueue n).2 } (x.world.session.enqueue n).1
    have hstep := SplitStep.enqueueCall hjobs hn hconclude
    rw [hphase'] at hstep
    exact ⟨_, next, hstep⟩
  · have hsome : (phase.advance? x.world.bridge j.thread).isSome = true :=
      Phase.isSome_advance hclosed hne
    obtain ⟨⟨b, phase'⟩, hadvance⟩ := Option.isSome_iff_exists.mp hsome
    have hj' := advance_of_phase (h.asks j hj) hphase' hadvance
    have hstep := SplitStep.whole (.step hjobs hj') fun thread p p' he => by
      cases he
      exact hcall
    rw [hphase'] at hstep
    exact ⟨_, phase', hstep⟩

/-- A call that announces something was admitted too late. -/
theorem Sound.exists_step_announcing (h : x.Sound) (hover : x.Over) {thread : ThreadId} {n : Notification}
    (hn : (thread, n) ∈ x.calls) (hphase : phaseOf x.world.jobs thread = none) :
    ∃ y, SplitStep x (some (.step thread none (some (.returned (.error .closed))))) y := by
  obtain ⟨-, hqueue, -⟩ := h.shut hover
  obtain ⟨j, hj, hthread, hreporting⟩ := h.reporting _ hn
  obtain rfl : j.thread = thread := hthread
  obtain ⟨before, after, hjobs⟩ := List.append_of_mem hj
  have hnone : j.phase = none := (phaseOf_of_mem h.distinct hj).symm.trans hphase
  obtain ⟨e, next, hconclude, hcase⟩ := Job.conclude_cases hreporting
    { x.world.bridge with session := (x.world.session.enqueue n).2 } (x.world.session.enqueue n).1
  have hstep := SplitStep.enqueueCall hjobs hn hconclude
  have hreply : (x.world.session.enqueue n).1 = .error .closed := by
    rw [Session.enqueue_of_isShut hqueue]
  rw [hnone, hreply] at hcase
  rw [hnone] at hstep
  cases hcase with
  | announced => exact ⟨_, hstep⟩

/-- **The end of a session leaves nobody waiting.** In a session whose pauses are waited for without a
bound, let the dispatcher be done, in whatever way it came to its end. Then, and after whatever anyone does
later:

* the queue is empty and takes nothing, no thread is paused and nothing is admitted; every report is
  refused, and every call that comes in returns at once without a report;
* a call that was in progress when the dispatcher was done, and whose caller has not left with the reply,
  will return, or has returned, what was certain at that moment; it has made a bounded number of steps
  since; and unless it has returned it can make the next one;
* so does a call that announces the start or the end of the engine and was admitted: it is refused. -/
theorem teardown_leaves_nobody_waiting {settings : DebuggerSettings} (ht : settings.resumeTimeout = none)
    {trace later : List (Option World.Act)} {x y : SplitWorld}
    (h : Execution SplitStep { world := .create settings true } trace x)
    (hdone : x.world.session.exit?.isSome = true) (hlater : Execution SplitStep x later y) :
    y.TornDown ∧ (∀ thread phase, phaseOf x.world.jobs thread = some phase →
      (∀ p, some (.step thread p none) ∉ later) →
        ∃ phase', phaseOf y.world.jobs thread = some phase' ∧
          y.world.engine.verdict thread phase' = x.world.engine.verdict thread phase ∧
          stepsOf thread later + phase'.stepsLeft ≤ phase.stepsLeft ∧
          ((∃ reply, phase' = .returned reply) ∨
            ∃ z next, SplitStep y (some (.step thread (some phase') (some next))) z)) ∧
      ∀ thread n, (thread, n) ∈ y.calls → phaseOf y.world.jobs thread = none →
        ∃ z, SplitStep y (some (.step thread none (some (.returned (.error .closed))))) z := by
  have hsound : x.Sound := h.state_invariant (sound_create ht) fun ih hstep => ih.step hstep
  obtain ⟨hlast, hover, hnears⟩ := hlater.invariant
    (P := fun later y => y.Sound ∧ y.Over ∧ ∀ thread phase, phaseOf x.world.jobs thread = some phase →
      (∀ p, some (.step thread p none) ∉ later) → Nears x y later thread phase)
    ⟨hsound, hdone, fun thread phase hphase _ => nears_of_others hphase rfl rfl rfl rfl⟩
    -- One step more, which is either one of the thread or leaves its call alone.
    fun {acts z act z'} _ ih hstep => by
      obtain ⟨hz, hover, hnears⟩ := ih
      obtain ⟨hover', hnext⟩ := hz.after hover hstep
      refine ⟨hz.step hstep, hover', fun thread phase hphase hstay => ?_⟩
      obtain ⟨phase', hphase', hverdict, hsteps⟩ :=
        hnears thread phase hphase fun p hmem => hstay p (List.mem_append_left _ hmem)
      obtain ⟨phase'', hphase'', hverdict', hsteps'⟩ :=
        hnext thread phase' hphase' fun p he => hstay p (by simp [he])
      refine ⟨phase'', hphase'', hverdict'.trans hverdict, ?_⟩
      rw [stepsOf, List.countP_append]
      rw [stepsOf] at hsteps hsteps'
      omega
  refine ⟨hlast.tornDown hover, fun thread phase hphase hstay => ?_, fun thread n hn hphase =>
    hlast.exists_step_announcing hover hn hphase⟩
  obtain ⟨phase', hphase', hverdict, hsteps⟩ := hnears thread phase hphase hstay
  refine ⟨phase', hphase', hverdict, hsteps, ?_⟩
  by_cases hreturned : ∃ reply, phase' = .returned reply
  · exact .inl hreturned
  · obtain ⟨z, next, hstep⟩ := hlast.exists_step hover hphase' fun reply he => hreturned ⟨reply, he⟩
    exact .inr ⟨z, next, hstep⟩

/-- A world in which the call of a script that was loaded waits, and the control side cancels. -/
def cancelling : World :=
  let started := (World.create {} true).withSession ((World.create {} true).session.notify .engineStarted).2
  let waiting := ((started.begin World.loading).settleFrom [] 6).1
  waiting.withSession (ControlCall.cancel.run waiting.session)

/-- The world in which the dispatcher has closed everything, and the call still waits. -/
def cancelled : World :=
  (cancelling.settleFrom [] 6).1

/-- A call that waits when the queue is cancelled returns by itself, and is told to end. -/
theorem teardown_leaves_nobody_waiting_cancelled :
    cancelled.session.exit? = some .cancelled ∧ Waits (phaseOf cancelled.jobs ⟨1⟩) ∧
    ∃ w, TornDown { world := w } ∧ phaseOf w.jobs ⟨1⟩ = some (.returned (.error .terminated)) := by
  have hstart := Execution.single (World.AnyStep.report (World.create {} true) .engineStarted)
  obtain ⟨acts, hwaiting, -⟩ := World.execution_anyStep_settleFrom
    (hstart.next (.begin (j := World.loading) 1 (.inl ⟨_, rfl⟩) (by decide))) 6
  obtain ⟨later, hcancelled, -⟩ := World.execution_anyStep_settleFrom (hwaiting.next (.call _ .cancel)) 6
  obtain ⟨last, hlast, -⟩ := World.execution_anyStep_settleFrom
    (.start : Execution World.AnyStep cancelled [] cancelled) 1
  have hdone : cancelled.session.exit? = some .cancelled := by decide +kernel
  have huntimed : ({} : DebuggerSettings).resumeTimeout = none := rfl
  obtain ⟨htorn, -⟩ := teardown_leaves_nobody_waiting huntimed (splitStep_of_anyStep hcancelled)
    (congrArg Option.isSome hdone) (splitStep_of_anyStep hlast)
  exact ⟨hdone, ⟨_, rfl⟩, _, htorn, rfl⟩

end SplitWorld

end Pausepoint
