import Pausepoint.Proofs.Session.Lifecycle

/-!
# Pausepoint.Proofs.Session.Shutdown

How a session is shut.

Every end of the dispatcher goes through the same tasks: the queue is closed, the gate is closed, the
engine learns of it, and only then the dispatcher is done. What is shut stays shut, whatever anyone does
after that.

A report has two halves, between which anything may happen: the gate admits it, and it is queued.
`Session.letIn` and `Session.enqueue` are the halves, and `notify_eq` says that a report that nothing comes
between is both of them.

* `EventQueue.IsShut`, `Gate.IsShut` — nothing is in it, and nothing will be;
* `Session.Shutting` — the invariant: what the dispatcher has not shut on its way out is still on its
  agenda.
-/

namespace Pausepoint

/-! ### What is shut stays shut -/

/-- Nothing waits in the queue, and nothing is taken. -/
structure EventQueue.IsShut (q : EventQueue) : Prop where
  closed : q.closed = true
  empty : q.events = []

/-- No thread is paused, and nothing is admitted. -/
structure Gate.IsShut (g : Gate) : Prop where
  closed : g.closed = true
  free : g.paused = []

namespace EventQueue.IsShut

variable {q : EventQueue}

theorem submit (h : q.IsShut) (e : Event) : q.submit e = .error .closed := by
  rw [EventQueue.submit, if_pos h.closed]

theorem cancel (h : q.IsShut) : q.cancel.IsShut := by
  unfold EventQueue.cancel
  split
  · exact h
  · exact ⟨rfl, h.empty⟩

end EventQueue.IsShut

namespace Gate.IsShut

variable {g : Gate}

theorem accept (h : g.IsShut) (n : Notification) : g.accept n = .error .closed := by
  unfold Gate.accept
  rw [if_pos h.closed]

theorem release (h : g.IsShut) (thread : ThreadId) : (g.release thread).IsShut := by
  refine ⟨h.closed, ?_⟩
  rw [Gate.release, h.free]
  rfl

theorem revoke (h : g.IsShut) (n : Notification) : (g.revoke n).IsShut := by
  unfold Gate.revoke
  split
  · exact h.release _
  · exact h

end Gate.IsShut

namespace Session

/-! ### The halves of a report -/

/-- The gate admits a report, or says why not. -/
def letIn (s : Session) (n : Notification) : Except Refusal Session :=
  match s.gate.accept n with
  | .error cause => .error cause
  | .ok gate => .ok { s with gate }

/-- A report that was admitted is queued, or the gate forgets its pause again. -/
def enqueue (s : Session) (n : Notification) : Reply × Session :=
  match s.queue.submit (.notification n) with
  | .ok (_, queue) => (.ok (), { s with queue })
  | .error cause => (.error cause, { s with gate := s.gate.revoke n })

/-- **A report that nothing comes between** is one half after the other. -/
theorem notify_eq (s : Session) (n : Notification) : s.notify n =
    match s.letIn n with
    | .error cause => (.error cause, s)
    | .ok s => s.enqueue n := by
  unfold notify letIn enqueue
  cases s.gate.accept n <;> rfl

/-- What admits leaves all but the gate alone. -/
theorem letIn_frame {s s' : Session} {n : Notification} (h : s.letIn n = .ok s') :
    ∃ gate, s.gate.accept n = .ok gate ∧ s' = { s with gate } := by
  unfold letIn at h
  split at h
  · cases h
  · next gate hgate =>
      cases h
      exact ⟨gate, hgate, rfl⟩

theorem worker_enqueue (s : Session) (n : Notification) : (s.enqueue n).2.worker = s.worker := by
  unfold enqueue
  split <;> rfl

/-- A queue that is shut refuses what was admitted before. -/
theorem enqueue_of_isShut {s : Session} (h : s.queue.IsShut) (n : Notification) :
    s.enqueue n = (.error .closed, { s with gate := s.gate.revoke n }) := by
  rw [enqueue, h.submit]

/-! ### The invariant -/

/-- The dispatcher will be done, or is. -/
def Ending (s : Session) : Prop :=
  (∃ exit, .finish exit ∈ s.worker.agenda) ∨ s.worker.exit.isSome = true

/-- **The invariant**: a dispatcher on its way out has shut queue and gate, and has told the engine, or
will do so before it is done. -/
structure Shutting (s : Session) (told : Prop) : Prop where
  done : s.worker.exit = none ∨ s.worker.agenda = []
  last : EndsLast s.worker.agenda
  queue : s.Ending → .closeQueue ∈ s.worker.agenda ∨ s.queue.IsShut
  gate : s.Ending → .closeGate ∈ s.worker.agenda ∨ s.gate.IsShut
  engine : s.Ending → .forwardClosed ∈ s.worker.agenda ∨ told

theorem shutting_create (settings : DebuggerSettings) (told : Prop) : (create settings).Shutting told where
  done := .inl rfl
  last _ := List.not_mem_nil
  queue h := by rcases h with ⟨exit, h⟩ | h <;> cases h
  gate h := by rcases h with ⟨exit, h⟩ | h <;> cases h
  engine h := by rcases h with ⟨exit, h⟩ | h <;> cases h

/-- Once the dispatcher is done, everything is shut. -/
theorem Shutting.shut {s : Session} {told : Prop} (h : s.Shutting told) (hdone : s.exit?.isSome = true) :
    s.worker.agenda = [] ∧ s.queue.IsShut ∧ s.gate.IsShut ∧ told := by
  have hagenda : s.worker.agenda = [] := h.done.resolve_left fun hnone => by
    rw [exit?, hnone] at hdone
    cases hdone
  have hending : s.Ending := .inr hdone
  have hqueue := h.queue hending
  have hgate := h.gate hending
  have hengine := h.engine hending
  rw [hagenda] at hqueue hgate hengine
  exact ⟨hagenda, hqueue.resolve_left List.not_mem_nil, hgate.resolve_left List.not_mem_nil,
    hengine.resolve_left List.not_mem_nil⟩

namespace Shutting

variable {s s' : Session} {told told' : Prop}

/-- Whoever leaves the dispatcher alone and opens nothing keeps the invariant. -/
theorem outside (h : s.Shutting told) (hworker : s'.worker = s.worker)
    (hqueue : s.queue.IsShut → s'.queue.IsShut) (hgate : s.gate.IsShut → s'.gate.IsShut)
    (htold : told → told') : s'.Shutting told' := by
  have hending : s'.Ending → s.Ending := by
    rw [Ending, Ending, hworker]
    exact id
  refine ⟨hworker ▸ h.done, hworker ▸ h.last, fun he => ?_, fun he => ?_, fun he => ?_⟩
  · rw [hworker]
    exact (h.queue (hending he)).imp_right hqueue
  · rw [hworker]
    exact (h.gate (hending he)).imp_right hgate
  · rw [hworker]
    exact (h.engine (hending he)).imp_right htold

theorem letIn {n : Notification} (h : s.Shutting told) (hs : s.letIn n = .ok s') :
    s'.Shutting told := by
  obtain ⟨gate, hgate, rfl⟩ := letIn_frame hs
  refine h.outside rfl id (fun hshut => ?_) id
  rw [hshut.accept] at hgate
  cases hgate

theorem enqueue (h : s.Shutting told) (n : Notification) : (s.enqueue n).2.Shutting told := by
  refine h.outside (s.worker_enqueue n) (fun hshut => ?_) (fun hshut => ?_) id
  · rw [enqueue_of_isShut hshut]
    exact hshut
  · unfold Session.enqueue
    split
    · exact hshut
    · exact hshut.revoke n

theorem notify (h : s.Shutting told) (n : Notification) : (s.notify n).2.Shutting told := by
  rw [notify_eq]
  split
  · exact h
  · next hs => exact (h.letIn hs).enqueue n

theorem abandonPause (h : s.Shutting told) (thread : ThreadId) :
    (s.abandonPause thread).2.Shutting told :=
  h.outside rfl id (fun hshut => hshut.release thread) id

theorem commanded {cs : List Command} (h : s.Shutting told) (hc : s.Commanded s' cs) :
    s'.Shutting told := by
  refine h.outside hc.worker (fun hshut => ?_) (fun hshut => hc.gate ▸ hshut) id
  rw [hc.queue, hc.closed hshut.closed]
  exact ⟨hshut.closed, by simpa using hshut.empty⟩

theorem call (h : s.Shutting told) (c : ControlCall) : (c.run s).Shutting told := by
  by_cases hc : c = .cancel
  · subst hc
    exact h.outside rfl EventQueue.IsShut.cancel id id
  · obtain ⟨cs, hcs⟩ := ControlCall.commanded s c hc
    exact h.commanded hcs

/-- An agenda that closes everything. -/
theorem of_closing {before : List Task} {exit : Exit} (hawake : s.worker.exit = none)
    (hlast : EndsLast s.worker.agenda) (hagenda : s.worker.agenda = before ++ closing exit) :
    s.Shutting told where
  done := .inl hawake
  last := hlast
  queue _ := .inl (by simp [hagenda, closing])
  gate _ := .inl (by simp [hagenda, closing])
  engine _ := .inl (by simp [hagenda, closing])

/-- Who takes an event has shut nothing yet. -/
theorem of_take (hs : s.take? = some s') : s'.Shutting told := by
  obtain ⟨hidle, hexit, ⟨e, rest, -, -, rfl⟩ | ⟨-, rfl⟩⟩ := take?_eq_some.mp hs
  · have hworker : ((s.withEvents rest).handle e).worker.exit = none := by
      rw [handle_eq]
      exact hexit
    have hagenda : ((s.withEvents rest).handle e).worker.agenda = s.tasksAfter e := by
      rw [agenda_handle, tasksAfter_withEvents]
    have hlast := s.endsLast_tasksAfter e
    rw [← hagenda] at hlast
    by_cases hends : ∃ exit, .finish exit ∈ s.tasksAfter e
    · obtain ⟨exit, hmem⟩ := hends
      obtain ⟨-, -, before, htasks⟩ := finish_of_tasksAfter hmem
      exact .of_closing hworker hlast (hagenda.trans htasks)
    · have hnot : ¬ ((s.withEvents rest).handle e).Ending := by
        rw [Ending, hagenda, hworker]
        exact fun hc => hends (hc.resolve_right Bool.false_ne_true)
      exact ⟨.inl hworker, hlast, fun he => absurd he hnot, fun he => absurd he hnot,
        fun he => absurd he hnot⟩
  · exact .of_closing hexit
      (endsLast_closing (fun _ => List.not_mem_nil) .cancelled : EndsLast ([] ++ closing .cancelled))
      (rfl : _ = [] ++ closing .cancelled)

/-- A task that closes something has closed it, and the others open nothing. -/
theorem effect_shut (s : Session) (task : Task) :
    (task = .closeQueue ∨ s.queue.IsShut → (s.effect task).queue.IsShut) ∧
      (task = .closeGate ∨ s.gate.IsShut → (s.effect task).gate.IsShut) := by
  cases task with
  | followUp c =>
      obtain ⟨cs, -, hc, -⟩ := s.commanded_submit c
      refine ⟨fun h => ?_, fun h => ?_⟩
      · have hshut := h.resolve_left (fun he => by cases he)
        show (s.submit (.command c)).2.queue.IsShut
        rw [hc.queue, hc.closed hshut.closed]
        exact ⟨hshut.closed, by simpa using hshut.empty⟩
      · show (s.submit (.command c)).2.gate.IsShut
        rw [hc.gate]
        exact h.resolve_left (fun he => by cases he)
  | closeQueue => exact ⟨fun _ => ⟨rfl, rfl⟩, fun h => h.resolve_left (fun he => by cases he)⟩
  | closeGate => exact ⟨fun h => h.resolve_left (fun he => by cases he), fun _ => ⟨rfl, rfl⟩⟩
  | release thread =>
      exact ⟨fun h => h.resolve_left (fun he => by cases he),
        fun h => (h.resolve_left (fun he => by cases he)).release thread⟩
  | releaseAll =>
      exact ⟨fun h => h.resolve_left (fun he => by cases he),
        fun h => ⟨(h.resolve_left (fun he => by cases he)).closed, rfl⟩⟩
  | callback | command | forward | lastCallback | forwardClosed | announceClosed | finish =>
      exact ⟨fun h => h.resolve_left (fun he => by cases he),
        fun h => h.resolve_left (fun he => by cases he)⟩

theorem perform (h : s.Shutting told) {task : Task} (hs : s.perform? = some (task, s'))
    (htold : task = .forwardClosed ∨ told → told') : s'.Shutting told' := by
  obtain ⟨rest, hagenda, rfl⟩ := perform?_cases hs
  obtain ⟨hqueue, hgate⟩ := effect_shut (s.withAgenda rest) task
  have hlast := h.last
  rw [hagenda] at hlast
  have hawake : s.worker.exit = none :=
    h.done.resolve_right (by rw [hagenda]; exact List.cons_ne_nil _ _)
  have hexit : ((s.withAgenda rest).effect task).worker.exit = none ∨ ∃ exit, task = .finish exit := by
    rw [exit_effect_eq]
    split
    · exact .inr ⟨_, rfl⟩
    · exact .inl hawake
  -- Whether the end is still due or just done, it was on the agenda.
  have hending : ((s.withAgenda rest).effect task).Ending → s.Ending := by
    rintro (⟨exit, hmem⟩ | hdone)
    · rw [agenda_effect, agenda_withAgenda] at hmem
      exact .inl ⟨exit, by rw [hagenda]; exact List.mem_cons_of_mem _ hmem⟩
    · rcases hexit with hnone | ⟨exit, rfl⟩
      · rw [hnone] at hdone
        cases hdone
      · exact .inl ⟨exit, by rw [hagenda]; exact List.mem_cons_self⟩
  have hmem {t : Task} (ht : t ∈ s.worker.agenda) : t ∈ rest ∨ task = t := by
    rw [hagenda] at ht
    exact (List.mem_cons.mp ht).symm.imp_right Eq.symm
  refine ⟨?_, ?_, fun he => ?_, fun he => ?_, fun he => ?_⟩
  · rw [agenda_effect, agenda_withAgenda]
    refine hexit.imp_right ?_
    rintro ⟨exit, htask⟩
    exact hlast.tail.2 exit htask
  · rw [agenda_effect, agenda_withAgenda]
    exact hlast.tail.1
  · rw [agenda_effect, agenda_withAgenda]
    rcases h.queue (hending he) with hdue | hshut
    · exact (hmem hdue).imp_right fun ht => hqueue (.inl ht)
    · exact .inr (hqueue (.inr hshut))
  · rw [agenda_effect, agenda_withAgenda]
    rcases h.gate (hending he) with hdue | hshut
    · exact (hmem hdue).imp_right fun ht => hgate (.inl ht)
    · exact .inr (hgate (.inr hshut))
  · rw [agenda_effect, agenda_withAgenda]
    rcases h.engine (hending he) with hdue | hdone
    · exact (hmem hdue).imp_right fun ht => htold (.inl ht)
    · exact .inr (htold (.inr hdone))

/-- After a failure everything is still to be shut. -/
theorem fail (hawake : s.worker.exit = none) (message : String) : (s.fail message).Shutting told := by
  have hagenda : (s.fail message).worker.agenda =
      (.releaseAll :: (s.target.terminate (some (s.faultOf message))).1.map .lastCallback) ++
        closing (.faulted (s.faultOf message)) := rfl
  refine .of_closing hawake ?_ hagenda
  rw [hagenda]
  exact endsLast_closing (fun exit => by simp) _

/-- Who has not come to the end is not done. -/
theorem awake (h : s.Shutting told) {task : Task} (hs : s.perform? = some (task, s'))
    (htask : ∀ exit, task ≠ .finish exit) : s'.worker.exit = none := by
  obtain ⟨rest, hagenda, rfl⟩ := perform?_cases hs
  rw [exit_effect_eq]
  split
  · next exit => exact absurd rfl (htask exit)
  · exact h.done.resolve_right (by rw [hagenda]; exact List.cons_ne_nil _ _)

end Shutting

end Session

end Pausepoint
