import Pausepoint.Proofs.World.Smooth

/-!
# Pausepoint.Proofs.World.IndistinctSessions

Sessions that calls of the engine cannot tell apart.

A call of the engine gets to see little of a session: whether its reports are received. Where two sessions
agree on that, and go on to do so (`Indistinct`), a job makes the same steps with either
(`Indistinct.job`). Two such sessions stand in for one that is about to end:

* `Session.staying` — the same without the requests to detach in its queue, for as long as they wait there;
* `Gate.alone` — nothing but its gate, once the dispatcher has nothing else to hand over.

`Smooth`, which asks for a session that nobody ends, is stated of these instead.
-/

namespace Pausepoint

open Pausepoint.Language

/-! ### Sessions that calls cannot tell apart -/

/-- Calls of the engine get the same replies from related sessions, and leave them related. -/
structure Indistinct (R : Session → Session → Prop) : Prop where
  notify : ∀ {s q : Session}, R s q → ∀ n,
    (q.notify n).1 = (s.notify n).1 ∧ R (s.notify n).2 (q.notify n).2
  abandonPause : ∀ {s q : Session}, R s q → ∀ thread,
    R (s.abandonPause thread).2 (q.abandonPause thread).2

section

variable {R : Session → Session → Prop} {s s' q : Session} {e e' : Engine} {thread : ThreadId}

/-- A step of a call. -/
theorem Indistinct.advance (hR : Indistinct R) (h : R s q) {phase phase' : Phase}
    (hstep : phase.advance? ⟨s, e⟩ thread = some (⟨s', e'⟩, phase')) :
    ∃ q', phase.advance? ⟨q, e⟩ thread = some (⟨q', e'⟩, phase') ∧ R s' q' := by
  cases phase with
  | entering r =>
      simp only [Phase.advance?] at hstep ⊢
      split at hstep <;> cases hstep <;> exact ⟨q, rfl, h⟩
  | opening p =>
      cases hstep
      exact ⟨q, rfl, h⟩
  | reporting p =>
      obtain ⟨hreply, hafter⟩ := hR.notify h p.report
      simp only [Phase.advance?, Bridge.notify] at hstep ⊢
      rw [← hreply] at hstep
      split at hstep
      · next hn =>
          obtain ⟨hok, rfl⟩ := Prod.mk.inj hn
          cases hstep
          rw [hok]
          exact ⟨_, rfl, hafter⟩
      · next hn =>
          obtain ⟨herror, rfl⟩ := Prod.mk.inj hn
          cases hstep
          rw [herror]
          exact ⟨_, rfl, hafter⟩
  | waiting p =>
      simp only [Phase.advance?] at hstep ⊢
      split at hstep <;> cases hstep <;> exact ⟨q, rfl, h⟩
  | confirming mode =>
      cases hstep
      exact ⟨_, rfl, (hR.notify h _).2⟩
  | abandoning milliseconds =>
      cases hstep
      exact ⟨_, rfl, hR.abandonPause h thread⟩
  | excusing milliseconds =>
      cases hstep
      exact ⟨_, rfl, (hR.notify h _).2⟩
  | returned reply => cases hstep

/-- The first step of a call. -/
theorem Indistinct.begin (hR : Indistinct R) (h : R s q) (point : Checkpoint) :
    ∃ q', Job.begin ⟨q, e⟩ point = (⟨q', e⟩, (Job.begin ⟨s, e⟩ point).2) ∧
      (Job.begin ⟨s, e⟩ point).1.engine = e ∧ R (Job.begin ⟨s, e⟩ point).1.session q' := by
  cases point with
  | started =>
      obtain ⟨hreply, hafter⟩ := hR.notify h .engineStarted
      refine ⟨_, ?_, rfl, hafter⟩
      simp only [Job.begin, Bridge.engineStarted, Bridge.notify, hreply]
  | ended =>
      obtain ⟨hreply, hafter⟩ := hR.notify h .engineTerminated
      simp only [Job.begin, Bridge.engineTerminated]
      split
      · exact ⟨q, rfl, rfl, h⟩
      · refine ⟨_, ?_, rfl, hafter⟩
        simp only [Bridge.notify, hreply]
  | load script depth => exact ⟨q, rfl, rfl, h⟩
  | line script line depth frames => exact ⟨q, rfl, rfl, h⟩

/-- **A step of a job.** -/
theorem Indistinct.job (hR : Indistinct R) (h : R s q) {j j' : Job}
    (hstep : j.advance? ⟨s, e⟩ = some (⟨s', e'⟩, j')) :
    ∃ q', j.advance? ⟨q, e⟩ = some (⟨q', e'⟩, j') ∧ R s' q' := by
  obtain ⟨point, heap, resume, hrun, ⟨hphase, hb, rfl⟩ | ⟨phase, phase', hphase, hadvance, rfl⟩ |
    ⟨reply, hphase, hb, rfl⟩⟩ := Job.advance?_cases hstep
  · obtain ⟨q', hbegin, hengine, hafter⟩ := hR.begin (e := e) h point
    rw [← hb] at hengine hafter
    obtain rfl : e' = e := hengine
    refine ⟨q', ?_, hafter⟩
    rw [Job.advance?, hrun]
    dsimp only
    rw [hphase, hbegin]
  · obtain ⟨q', hq, hafter⟩ := hR.advance h hadvance
    exact ⟨q', advance_of_phase (fun _ => ⟨point, heap, resume, hrun⟩) hphase hq, hafter⟩
  · obtain ⟨rfl, rfl⟩ := Bridge.mk.inj hb
    refine ⟨q, ?_, h⟩
    rw [Job.advance?, hrun]
    dsimp only
    rw [hphase]

end

/-! ### While `disconnect` waits -/

/-- The queue without the requests to detach that wait in it. -/
def EventQueue.staying (q : EventQueue) : EventQueue :=
  { q with events := q.events.filter (· ≠ .command .disconnect) }

/-- Anything else is submitted to it in the same way. -/
theorem EventQueue.submit_staying (q : EventQueue) {e : Event} (he : e ≠ .command .disconnect) :
    q.staying.submit e = (q.submit e).map fun (submitted, queue) => (submitted, queue.staying) := by
  have hmem : e ∈ q.staying.events ↔ e ∈ q.events := by simp [staying, he]
  have happend : q.staying.events ++ [e] = (q.events ++ [e]).filter (· ≠ .command .disconnect) := by
    simp [staying, he]
  unfold submit
  rw [happend]
  simp only [hmem]
  show (if q.closed then _ else if q.dedupe && decide (e ∈ q.events) then _ else _) = _
  by_cases hclosed : q.closed = true
  · rw [if_pos hclosed, if_pos hclosed]
    rfl
  · rw [if_neg hclosed, if_neg hclosed]
    by_cases hdup : (q.dedupe && decide (e ∈ q.events)) = true
    · rw [if_pos hdup, if_pos hdup]
      rfl
    · rw [if_neg hdup, if_neg hdup]
      rfl

namespace Session

/-- The session without the requests to detach that wait in its queue. -/
def staying (s : Session) : Session :=
  { s with queue := s.queue.staying }

/-- Reports are received there in the same way. -/
theorem notify_staying (s : Session) (n : Notification) :
    s.staying.notify n = ((s.notify n).1, (s.notify n).2.staying) := by
  have hsubmit := s.queue.submit_staying (e := .notification n) nofun
  unfold notify
  rw [show s.staying.queue = s.queue.staying from rfl, hsubmit, show s.staying.gate = s.gate from rfl]
  cases s.gate.accept n with
  | error cause => rfl
  | ok gate => cases s.queue.submit (.notification n) <;> rfl

/-- Any other command is queued there in the same way. -/
theorem submit_staying (s : Session) {c : Command} (hc : c ≠ .disconnect) :
    (s.staying.submit (.command c)).2 = (s.submit (.command c)).2.staying := by
  have hsubmit := s.queue.submit_staying (e := .command c) fun he => hc (Event.command.inj he)
  unfold submit
  rw [show s.staying.queue = s.queue.staying from rfl, hsubmit]
  cases s.queue.submit (.command c) <;> rfl

/-- A call of the control side queues the same there, but for requests to detach. -/
theorem Commanded.staying {s s' : Session} {cs : List Command} (h : s.Commanded s' cs) :
    s.staying.Commanded s'.staying (cs.filter (· ≠ .disconnect)) where
  gate := h.gate
  worker := h.worker
  target := h.target
  queue := by
    have hfilter : (cs.map Event.command).filter (· ≠ .command .disconnect) =
        (cs.filter (· ≠ .disconnect)).map Event.command := by
      rw [List.filter_map]
      congr 1
      exact List.filter_congr fun c _ => by simp
    show s'.queue.staying = _
    rw [h.queue, EventQueue.staying, List.filter_append, hfilter]
    rfl
  closed hc := by rw [h.closed hc]; rfl

/-- Any task but a request to detach is done there in the same way. -/
theorem perform_staying {s s' : Session} {task : Task} (hs : s.perform? = some (task, s'))
    (htask : task ≠ .followUp .disconnect) (hopen : task ≠ .closeQueue) :
    s.staying.perform? = some (task, s'.staying) := by
  obtain ⟨rest, hagenda, rfl⟩ := perform?_cases hs
  unfold perform?
  rw [show s.staying.worker.agenda = task :: rest from hagenda]
  dsimp only
  congr 2
  cases task with
  | followUp c => exact (s.withAgenda rest).submit_staying fun hc => htask (hc ▸ rfl)
  | closeQueue => exact absurd rfl hopen
  | release | releaseAll | callback | command | forward | lastCallback | closeGate | forwardClosed
  | announceClosed | finish => rfl

/-- Any event but a request to detach is taken there in the same way. -/
theorem take_staying {s : Session} {e : Event} {rest : List Event} (hagenda : s.worker.agenda = [])
    (hexit : s.worker.exit = none) (hcancelled : s.queue.cancelled = false)
    (hevents : s.queue.events = e :: rest) (he : e ≠ .command .disconnect) :
    s.staying.take? = some ((s.withEvents rest).handle e).staying := by
  have hfilter : s.staying.queue.events = e :: rest.filter (· ≠ .command .disconnect) := by
    show s.queue.events.filter _ = _
    rw [hevents, List.filter_cons_of_pos (by simp [he])]
  refine take?_eq_some.mpr ⟨hagenda, hexit, .inl ⟨e, _, hcancelled, hfilter, ?_⟩⟩
  cases e <;> rfl

end Session

/-! ### While the dispatcher has it -/

/-- A session of which only the gate matters. -/
def Gate.alone (g : Gate) : Session :=
  { gate := g }

/-- Two open queues behind the same gate cannot be told apart. -/
theorem indistinct_gate : Indistinct fun s q =>
    q.gate = s.gate ∧ s.queue.closed = false ∧ q.queue.closed = false where
  notify := by
    rintro s q ⟨hgate, hs, hq⟩ n
    have hclosed {s : Session} (hs : s.queue.closed = false) : (s.notify n).2.queue.closed = false := by
      obtain ⟨-, -, -, hqueue | hqueue⟩ := s.notify_frame n
      · rw [hqueue]
        exact hs
      · rw [hqueue]
        exact hs
    obtain ⟨cause, hcause, hn⟩ | ⟨gate, hok, hn⟩ := Session.notify_cases hs n
    · obtain ⟨cause', hcause', hn'⟩ | ⟨gate', hok', -⟩ := Session.notify_cases hq n
      · rw [hgate, hcause] at hcause'
        cases hcause'
        rw [hn, hn']
        exact ⟨rfl, hgate, hs, hq⟩
      · rw [hgate, hcause] at hok'
        cases hok'
    · obtain ⟨cause', hcause', -⟩ | ⟨gate', hok', hn'⟩ := Session.notify_cases hq n
      · rw [hgate, hok] at hcause'
        cases hcause'
      · rw [hgate, hok] at hok'
        cases hok'
        have hleft : (s.notify n).1 = .ok () ∧ (s.notify n).2.gate = gate := by
          rcases hn with hn | ⟨-, hn⟩ <;> rw [hn] <;> exact ⟨rfl, rfl⟩
        have hright : (q.notify n).1 = .ok () ∧ (q.notify n).2.gate = gate := by
          rcases hn' with hn' | ⟨-, hn'⟩ <;> rw [hn'] <;> exact ⟨rfl, rfl⟩
        exact ⟨hright.1.trans hleft.1.symm, hright.2.trans hleft.2.symm, hclosed hs, hclosed hq⟩
  abandonPause := fun ⟨hgate, hs, hq⟩ thread =>
    ⟨congrArg (·.release thread) hgate, hs, hq⟩

namespace Smooth

variable {thread : ThreadId} {b : Bridge} {points : List Checkpoint} {phase : Option Phase}

/-- Nothing but the gate matters while the dispatcher has nothing to hand over. -/
theorem alone (h : Smooth thread b points phase) :
    Smooth thread { b with session := b.session.gate.alone } points phase where
  peaceful :=
    { queue_open := rfl
      uncancelled := rfl
      gate_open := h.peaceful.gate_open
      events := nofun
      agenda := nofun }
  isOpen := h.isOpen
  unstale := h.unstale.dispatch fun _ hh =>
    absurd hh (Session.handing_of_forwards (Session.forwards_of_idle rfl) thread)
  course := h.course

/-- The gate may forget every pause: then no decision comes too late for it. -/
theorem releaseAll (h : Smooth thread b points phase) :
    Smooth thread { b with session := b.session.gate.releaseAll.alone } points phase where
  peaceful := { h.alone.peaceful with gate_open := h.peaceful.gate_open }
  isOpen := h.isOpen
  unstale := by
    have hnone : (thread ∈ b.session.gate.releaseAll.alone.gate.paused) = False :=
      eq_false List.not_mem_nil
    rw [hnone]
    exact h.unstale.release
  course := h.course.mono rfl id

end Smooth

end Pausepoint
