import Pausepoint.Proofs.World.IndistinctSessions

/-!
# Pausepoint.Proofs.World.Unheld

Jobs that nothing holds any more.

Once the engine is closed no call waits (`Job.isSome_advance`). Once it is detached, every call is
answered in a way that lets the script go on: `Unheld` is the invariant of the job from then on, and asks
nothing of gate, queue and slots but that the engine may still start, if it has not. A job makes no more
than a few steps for each of its checkpoints (`stepsLeft_of_advance`), so that whoever is never held comes
to an end.
-/

namespace Pausepoint

open Pausepoint.Language

/-! ### Once the engine is detached -/

/-- Where the call at a checkpoint may be, as far as it matters to the script. -/
def Language.Checkpoint.Bears (point : Checkpoint) : Phase → Prop
  | .returned reply => point.Harmless reply
  | .entering _ | .opening _ | .reporting _ | .waiting _ | .confirming _ | .abandoning _ | .excusing _ =>
      point.request?.isSome = true

/-- Where a run is that nobody holds any more. The engine may start for as long as the dispatcher has not
begun to close. -/
inductive Unheld (s : Session) : List Checkpoint → Option Phase → Prop
  | unstarted {points : List Checkpoint} (hagenda : s.worker.agenda = closing .disconnected)
      (hqueue : s.queue.closed = false) (hgate : s.gate.closed = false) (hphase : s.gate.phase = .idle)
      (hpoints : .started ∉ points) : Unheld s (.started :: points) none
  | between {points : List Checkpoint} (hpoints : .started ∉ points) : Unheld s points none
  | within {point : Checkpoint} {points : List Checkpoint} {phase : Phase} (hcall : point.Bears phase)
      (hpoints : .started ∉ points) : Unheld s (point :: points) (some phase)

theorem harmless_of_request {point : Checkpoint} (h : point.request?.isSome = true) {reply : Reply}
    (hreply : reply = .ok () ∨ ∃ milliseconds, reply = .error (.resumeTimeout milliseconds)) :
    point.Harmless reply := by
  cases point with
  | load | line => exact hreply
  | started | ended => cases h

/-- Where a run is is known as soon as the engine has the request to detach. -/
theorem Smooth.unheld {thread : ThreadId} {s : Session} {e : Engine} {points : List Checkpoint}
    {phase : Option Phase} (h : Smooth thread ⟨s.gate.alone, e⟩ points phase)
    (hagenda : s.worker.agenda = closing .disconnected) (hqueue : s.queue.closed = false) :
    Unheld s points phase := by
  have hpoints {seen : List Snapshot} {points : List Checkpoint} (ha : Announced seen points) :
      .started ∉ points ++ [.ended] := by
    rw [List.mem_append, not_or]
    exact ⟨started_not_mem ha, by decide⟩
  have hcourse := h.course
  cases hcourse with
  | unstarted hphase ha => exact .unstarted hagenda hqueue h.peaceful.gate_open hphase (hpoints ha)
  | started hphase ha => exact .within rfl (hpoints ha)
  | between hphase ha hknown => exact .between (hpoints ha)
  | @within seen point points phase hphase ha hknown hcall =>
      have hrest : .started ∉ points ++ [.ended] := by
        have hall := hpoints ha
        rw [List.cons_append, List.mem_cons, not_or] at hall
        exact hall.2
      refine .within ?_ hrest
      have hrequest : point.request?.isSome = true := by
        cases point with
        | load | line => rfl
        | started | ended => exact ha.elim
      cases phase with
      | returned reply => exact hcall.1
      | entering | opening | reporting | waiting | confirming | abandoning | excusing => exact hrequest

/-- A detached engine lets every call through. -/
theorem Unheld.call {b b' : Bridge} {thread : ThreadId} {points : List Checkpoint} {phase phase' : Phase}
    (h : Unheld b.session points (some phase)) (hclosed : b.engine.closed = some .detached)
    (hcall : CallStep b thread (some phase) b' (some phase')) :
    Unheld b'.session points (some phase') := by
  cases h with
  | @within point points phase hbears hpoints =>
      refine .within ?_ hpoints
      have hconsent (hbears : point.request?.isSome = true) : point.Harmless (.ok ()) :=
        harmless_of_request hbears (.inl rfl)
      cases hcall with
      | @refuse r cause hd =>
          rw [Engine.decide, hclosed] at hd
          cases hd
      | pass | confirm => exact hconsent hbears
      | pause | openSlot | report | takeUp | abandon => exact hbears
      | unreported =>
          rw [if_pos hclosed]
          exact hconsent hbears
      | @closed p c hwake =>
          cases hclosed.symm.trans (Engine.closed_of_wakening hwake)
          exact hconsent hbears
      | excuse milliseconds => exact harmless_of_request hbears (.inr ⟨milliseconds, rfl⟩)

/-- A call begins. -/
theorem Unheld.begin {b : Bridge} {point : Checkpoint} {points : List Checkpoint}
    (h : Unheld b.session (point :: points) none) :
    Unheld (Job.begin b point).1.session (point :: points) (some (Job.begin b point).2) := by
  generalize hall : point :: points = all at h
  cases h with
  | unstarted hagenda hqueue hgate hphase hpoints =>
      cases hall
      refine .within ?_ hpoints
      obtain ⟨cause, hcause, -⟩ | ⟨gate, -, hn⟩ := Session.notify_cases hqueue .engineStarted
      · have hidle : b.session.gate.phase ≠ .ended := by
          rw [hphase]
          nofun
        rw [Gate.accept_engineStarted hgate hidle] at hcause
        cases hcause
      · show (b.session.notify .engineStarted).1 = .ok ()
        rcases hn with hn | ⟨-, hn⟩ <;> rw [hn]
  | between hpoints =>
      rw [← hall, List.mem_cons, not_or] at hpoints
      rw [← hall]
      refine .within ?_ hpoints.2
      cases point with
      | started => exact absurd rfl hpoints.1
      | load | line => rfl
      | ended => trivial

/-- **A step of a job that nobody holds.** -/
theorem Unheld.job {b b' : Bridge} {j j' : Job} (hsteady : j.run.Steady)
    (h : Unheld b.session j.run.checkpoints j.phase) (hclosed : b.engine.closed = some .detached)
    (hstep : j.advance? b = some (b', j')) :
    j'.run.Steady ∧ j'.run.undisturbed = j.run.undisturbed ∧
      Unheld b'.session j'.run.checkpoints j'.phase := by
  obtain ⟨point, heap, resume, hrun, ⟨hphase, rfl, rfl⟩ | ⟨phase, phase', hphase, hadvance, rfl⟩ |
    ⟨reply, hphase, rfl, rfl⟩⟩ := Job.advance?_cases hstep
  · rw [hphase, hrun] at h
    refine ⟨hsteady, rfl, ?_⟩
    show Unheld _ j.run.checkpoints (some (Job.begin b point).2)
    rw [hrun]
    exact h.begin
  · rw [hphase] at h
    exact ⟨hsteady, rfl, h.call hclosed (callStep_of_phase hadvance)⟩
  · rw [hphase, hrun] at h
    rw [hrun] at hsteady
    cases h with
    | within hcall hpoints =>
        have hsame : resume reply = resume (.ok ()) := hsteady.1 reply hcall
        dsimp only
        rw [hsame, hrun]
        exact ⟨hsteady.2, rfl, .between hpoints⟩

/-- A call that a closed engine is in makes its next step. -/
theorem Phase.isSome_advance {b : Bridge} {thread : ThreadId} {phase : Phase} {c : Closed}
    (hclosed : b.engine.closed = some c) (hne : ∀ reply, phase ≠ .returned reply) :
    (phase.advance? b thread).isSome = true := by
  cases phase with
  | entering r =>
      simp only [advance?]
      split <;> rfl
  | reporting p =>
      simp only [advance?]
      split <;> rfl
  | waiting p =>
      cases hwake : b.engine.wakening? thread with
      | none =>
          unfold Engine.wakening? at hwake
          rw [hclosed] at hwake
          split at hwake <;> simp_all
      | some wakening =>
          simp only [advance?, hwake]
          cases wakening <;> rfl
  | opening | confirming | abandoning | excusing => rfl
  | returned reply => exact absurd rfl (hne reply)

/-- **Nothing holds a job** once the engine is closed. -/
theorem Job.isSome_advance {b : Bridge} {j : Job} {c : Closed} (hclosed : b.engine.closed = some c)
    (hresult : j.result? = none) : (j.advance? b).isSome = true := by
  unfold result? at hresult
  unfold advance?
  cases hrun : j.run with
  | done result =>
      rw [hrun] at hresult
      cases hresult
  | ask point heap resume =>
      dsimp only
      split
      · rfl
      · rfl
      · next phase hne _ =>
          rw [Option.isSome_map]
          exact Phase.isSome_advance hclosed fun reply he => hne reply he

/-- A wait that has ended is not given up. -/
theorem Job.giveUp?_of_closed {b : Bridge} {c : Closed} (hclosed : b.engine.closed = some c) (j : Job) :
    j.giveUp? b = none := by
  cases hgive : j.giveUp? b with
  | none => rfl
  | some next =>
      obtain ⟨p, -, -, -, hnone, -⟩ := giveUp?_cases hgive
      have hsome : ((Phase.waiting p).advance? b j.thread).isSome = true :=
        Phase.isSome_advance hclosed nofun
      simp only [Phase.advance?, hnone] at hsome
      cases hsome

/-! ### How long a run may take -/

/-- How many steps a job may still make. -/
def Job.stepsLeft (j : Job) : Nat :=
  match j.phase with
  | none => 8 * j.run.checkpoints.length
  | some phase => 8 * (j.run.checkpoints.length - 1) + 1 + phase.stepsLeft

/-- Every call that has returned was answered in a way that lets the script go on. -/
def Job.Answered (j : Job) : Prop :=
  ∀ point points reply, j.run.checkpoints = point :: points → j.phase = some (.returned reply) →
    point.Harmless reply

theorem stepsLeft_of_callStep {b b' : Bridge} {thread : ThreadId} {phase phase' : Phase}
    (h : CallStep b thread (some phase) b' (some phase')) : phase'.stepsLeft < phase.stepsLeft := by
  cases h <;> simp [Phase.stepsLeft]

/-- **Every step of a job brings it closer to its end.** -/
theorem stepsLeft_of_advance {b b' : Bridge} {j j' : Job} (hsteady : j.run.Steady) (hanswered : j.Answered)
    (hstep : j.advance? b = some (b', j')) : j'.stepsLeft < j.stepsLeft := by
  obtain ⟨point, heap, resume, hrun, ⟨hphase, rfl, rfl⟩ | ⟨phase, phase', hphase, hadvance, rfl⟩ |
    ⟨reply, hphase, rfl, rfl⟩⟩ := Job.advance?_cases hstep
  · have hfirst : (Job.begin b point).2.stepsLeft ≤ 6 := by
      cases point <;> simp [Job.begin, Phase.stepsLeft]
    have hlength : j.run.checkpoints.length = (resume (.ok ())).checkpoints.length + 1 := by rw [hrun]; rfl
    simp only [Job.stepsLeft, Job.inPhase, hphase, hlength]
    omega
  · have hless := Phase.stepsLeft_advance hadvance
    simp only [Job.stepsLeft, Job.inPhase, hphase]
    omega
  · have hsame : resume reply = resume (.ok ()) := by
      rw [hrun] at hsteady
      exact hsteady.1 reply (hanswered point _ reply (by rw [hrun]; rfl) hphase)
    have hlength : j.run.checkpoints.length = (resume (.ok ())).checkpoints.length + 1 := by rw [hrun]; rfl
    simp only [Job.stepsLeft, hphase, hsame, hlength, Phase.stepsLeft]
    omega

end Pausepoint
