import Pausepoint.Proofs.Session.Occurrences
import Pausepoint.Proofs.Session.Orders

/-!
# Pausepoint.Proofs.Session.Delivery

What a queue hands out, and what is delivered after a cancellation.

`events_are_delivered_in_order` is the main result. It has two parts, one for each side of the queue.

* **The queue by itself.** `EventQueue.Serves` is everything that can be done with a queue, in any order:
  anyone submits, the dispatcher asks for the next event, anyone cancels, the dispatcher closes.
  `EventQueue.Delivers` is what every such run keeps: events leave the queue in the order in which they
  were taken into it, each of them once, and none is lost before the queue is closed.
* **The dispatcher.** A cancelled queue hands out nothing, so all that is still delivered belongs to the
  event that was taken last before (`Session.DeliversOnly`). The cancellation may fall between any two
  tasks of its handling.

Proof shape: an account of the queue by induction on its runs; for the dispatcher, `Session.Underway` says
what was delivered of an event and what its agenda will deliver, before and after a failure of client code.
The cancellation itself changes neither the agenda nor the target, so the same invariant carries a run
through it.
-/

namespace Pausepoint

/-! ### The queue by itself -/

namespace EventQueue

/-- What is done with a queue, and what comes of it. -/
inductive Handling
  /-- An event was submitted, and this was the answer. -/
  | submitted (e : Event) (answer : Except Refusal Submitted)
  /-- The next event was asked for, and this came out; nothing comes out of a queue that has ended. -/
  | next (e : Option Event)
  | cancelled
  /-- The queue was closed. -/
  | closed

/-- The answer to a submission. -/
def answer (q : EventQueue) (e : Event) : Except Refusal Submitted :=
  (q.submit e).map Prod.fst

/-- One step of a queue. Who asks for an event while there is none, and may yet be one, waits. -/
inductive Serves : EventQueue → Handling → EventQueue → Prop
  | submit (q : EventQueue) (e : Event) : Serves q (.submitted e (q.answer e)) (q.offer e)
  | give {q rest : EventQueue} {e : Event} (h : q.next = .event e rest) : Serves q (.next (some e)) rest
  | refuse {q : EventQueue} (h : q.next = .none) : Serves q (.next none) q
  | cancel (q : EventQueue) : Serves q .cancelled q.cancel
  | close (q : EventQueue) : Serves q .closed q.close

/-- The event that was taken in, if one was. -/
def Handling.queued? : Handling → Option Event
  | .submitted e (.ok .queued) => some e
  | _ => none

/-- The event that was handed out, if one was. -/
def Handling.handed? : Handling → Option Event
  | .next e => e
  | _ => none

/-- The events for which a submission was answered that they wait. -/
def queued (trace : List Handling) : List Event :=
  trace.filterMap Handling.queued?

/-- The events that were handed out. -/
def handed (trace : List Handling) : List Event :=
  trace.filterMap Handling.handed?

@[simp] theorem queued_snoc (trace : List Handling) (h : Handling) :
    queued (trace ++ [h]) = queued trace ++ h.queued?.toList := by
  cases hq : h.queued? <;> simp [queued, hq]

theorem handed_append (trace later : List Handling) :
    handed (trace ++ later) = handed trace ++ handed later :=
  List.filterMap_append

@[simp] theorem handed_snoc (trace : List Handling) (h : Handling) :
    handed (trace ++ [h]) = handed trace ++ h.handed?.toList := by
  cases hh : h.handed? <;> simp [handed, hh]

variable {q q' : EventQueue} {trace : List Handling}

/-- **What a submission comes to**: a closed queue refuses it; a queue against duplicates drops an event
while an equal one waits; else the event waits behind all others. -/
theorem submission_cases (q : EventQueue) (e : Event) :
    (q.closed = true ∧ q.answer e = .error .closed ∧ q.offer e = q) ∨
    (q.closed = false ∧ q.dedupe = true ∧ e ∈ q.events ∧ q.answer e = .ok .duplicate ∧ q.offer e = q) ∨
    (q.closed = false ∧ (q.dedupe = true → e ∉ q.events) ∧ q.answer e = .ok .queued ∧
      q.offer e = { q with events := q.events ++ [e] }) := by
  unfold answer offer submit
  cases hclosed : q.closed with
  | true => exact .inl ⟨rfl, rfl, rfl⟩
  | false =>
      by_cases hwaits : (q.dedupe && decide (e ∈ q.events)) = true
      · have ⟨hdedupe, hmem⟩ : q.dedupe = true ∧ e ∈ q.events := by simpa using hwaits
        refine .inr (.inl ⟨rfl, hdedupe, hmem, ?_⟩)
        simp [hwaits, Except.map]
      · refine .inr (.inr ⟨rfl, fun hdedupe hmem => hwaits (by simp [hdedupe, hmem]), ?_⟩)
        simp [hwaits, Except.map]

/-- To offer some events is to submit them one after the other. -/
theorem serves_offers (q : EventQueue) (es : List Event) :
    ∃ trace, Execution Serves q trace (q.offers es) ∧ handed trace = [] := by
  induction es generalizing q with
  | nil => exact ⟨[], .start, rfl⟩
  | cons e rest ih =>
      obtain ⟨trace, hrun, hnone⟩ := ih (q.offer e)
      have hfirst := Execution.single (Serves.submit q e)
      exact ⟨_, hfirst.append hrun, by rw [handed_append, hnone]; rfl⟩

/-- A queue that was cancelled is closed too, and has ended. -/
structure Ended (q : EventQueue) : Prop where
  cancelled : q.cancelled = true
  closed : q.closed = true

theorem Ended.next (h : q.Ended) : q.next = .none := by
  simp [EventQueue.next, h.cancelled]

theorem Ended.submit (h : q.Ended) (e : Event) : q.submit e = .error .closed := by
  simp [EventQueue.submit, h.closed]

/-- What every run of a queue keeps, with or without the rule against duplicates. -/
structure Delivers (unique : Bool) (trace : List Handling) (q : EventQueue) : Prop where
  /-- What is handed out is the beginning of what was taken in: in the same order, and each event once. -/
  order : handed trace <+: queued trace
  /-- Every event that was taken in was handed out, waits, or was discarded when the queue was closed, and
  this is the order of all of them. -/
  account : ∃ discarded, queued trace = handed trace ++ q.events ++ discarded ∧
    (.closed ∉ trace → discarded = [])
  /-- The rule against duplicates stays what it is. -/
  dedupe : q.dedupe = unique
  /-- Under it no two equal events ever wait together. -/
  distinct : unique = true → q.events.Nodup
  /-- An event is dropped only under it, while an equal one waits, and the queue stays as it is. -/
  duplicate : ∀ e, q.answer e = .ok .duplicate → unique = true ∧ e ∈ q.events ∧ q.offer e = q
  /-- From the first cancellation on, nothing is handed out, and every submission is refused and changes
  nothing. -/
  ended : .cancelled ∈ trace → q.next = .none ∧ ∀ e, q.answer e = .error .closed ∧ q.offer e = q

/-- The account of a queue, step by step; an open queue has discarded nothing. -/
structure Keeps (unique : Bool) (trace : List Handling) (q : EventQueue) : Prop where
  account : ∃ discarded, queued trace = handed trace ++ q.events ++ discarded ∧
    (.closed ∉ trace → discarded = []) ∧ (q.closed = false → discarded = [])
  dedupe : q.dedupe = unique
  distinct : unique = true → q.events.Nodup
  cancelled : q.cancelled = true → q.closed = true
  ended : .cancelled ∈ trace → q.Ended

theorem keeps_empty (unique : Bool) : Keeps unique [] { dedupe := unique } where
  account := ⟨[], rfl, fun _ => rfl, fun _ => rfl⟩
  dedupe := rfl
  distinct _ := List.nodup_nil
  cancelled h := nomatch h
  ended h := nomatch h

/-- What was not done in a run and its last step was done in neither. -/
private theorem not_mem_of_snoc {h : Handling} {label : Handling} (hnot : h ∉ trace ++ [label]) :
    h ∉ trace ∧ h ≠ label := by
  simpa using hnot

namespace Keeps

variable {unique : Bool}

/-- A step of which nothing shows but its label, which is none of those that count. -/
theorem idle (hk : Keeps unique trace q) {label : Handling} (hqueued : label.queued? = none)
    (hhanded : label.handed? = none) (hcancelled : label ≠ .cancelled) :
    Keeps unique (trace ++ [label]) q where
  account := by
    obtain ⟨discarded, haccount, htrace, hopen⟩ := hk.account
    refine ⟨discarded, ?_, fun hnot => htrace (not_mem_of_snoc hnot).1, hopen⟩
    simp [hqueued, hhanded, haccount]
  dedupe := hk.dedupe
  distinct := hk.distinct
  cancelled := hk.cancelled
  ended hmem := by
    obtain hmem | hlast := List.mem_append.mp hmem
    · exact hk.ended hmem
    · exact absurd (List.mem_singleton.mp hlast).symm hcancelled

/-- A submission. -/
theorem submit (hk : Keeps unique trace q) (e : Event) :
    Keeps unique (trace ++ [.submitted e (q.answer e)]) (q.offer e) := by
  obtain ⟨-, hanswer, hafter⟩ | ⟨-, -, -, hanswer, hafter⟩ | ⟨hopen, hnew, hanswer, hafter⟩ :=
    q.submission_cases e
  · rw [hanswer, hafter]
    exact hk.idle rfl rfl nofun
  · rw [hanswer, hafter]
    exact hk.idle rfl rfl nofun
  · rw [hanswer, hafter]
    obtain ⟨discarded, haccount, -, hnone⟩ := hk.account
    obtain rfl := hnone hopen
    refine ⟨⟨[], ?_, fun _ => rfl, fun _ => rfl⟩, hk.dedupe, fun hdedupe => ?_, hk.cancelled,
      fun hmem => ?_⟩
    · rw [queued_snoc, handed_snoc, haccount]
      simp [Handling.queued?, Handling.handed?]
    · have hother := hnew (hk.dedupe.trans hdedupe)
      refine List.nodup_append.mpr ⟨hk.distinct hdedupe, by simp, fun other hmem last hlast => ?_⟩
      rw [List.mem_singleton.mp hlast]
      exact fun hsame => hother (hsame ▸ hmem)
    · have hended := hk.ended (by simpa using hmem)
      exact absurd (hopen.symm.trans hended.closed) nofun

/-- The event in front is handed out. -/
theorem give (hk : Keeps unique trace q) {rest : EventQueue} {e : Event} (h : q.next = .event e rest) :
    Keeps unique (trace ++ [.next (some e)]) rest := by
  obtain ⟨-, hevents, hrest⟩ := next_event h
  obtain ⟨discarded, haccount, htrace, hopen⟩ := hk.account
  have hdistinct : unique = true → rest.events.Nodup := by
    intro hdedupe
    have hnodup := hk.distinct hdedupe
    rw [hevents] at hnodup
    exact (List.nodup_cons.mp hnodup).2
  rw [hrest]
  refine ⟨⟨discarded, ?_, fun hnot => htrace (not_mem_of_snoc hnot).1, hopen⟩, hk.dedupe, hdistinct,
    hk.cancelled, fun hmem => ?_⟩
  · rw [queued_snoc, handed_snoc, haccount, hevents]
    simp [Handling.queued?, Handling.handed?]
  · have hended := hk.ended (by simpa using hmem)
    exact ⟨hended.cancelled, hended.closed⟩

/-- A cancellation keeps what waits. -/
theorem cancel (hk : Keeps unique trace q) : Keeps unique (trace ++ [.cancelled]) q.cancel := by
  have hended : q.cancel.Ended ∧ q.cancel.events = q.events ∧ q.cancel.dedupe = q.dedupe := by
    unfold EventQueue.cancel
    split
    · next hdone => exact ⟨⟨hdone, hk.cancelled hdone⟩, rfl, rfl⟩
    · exact ⟨⟨rfl, rfl⟩, rfl, rfl⟩
  obtain ⟨hended, hevents, hdedupe⟩ := hended
  obtain ⟨discarded, haccount, htrace, -⟩ := hk.account
  refine ⟨⟨discarded, ?_, fun hnot => htrace (not_mem_of_snoc hnot).1, fun hopen => ?_⟩,
    hdedupe.trans hk.dedupe, ?_, fun _ => hended.closed, fun _ => hended⟩
  · rw [queued_snoc, handed_snoc, haccount, hevents]
    simp [Handling.queued?, Handling.handed?]
  · simp [hended.closed] at hopen
  · rw [hevents]
    exact hk.distinct

/-- Closing discards what waits. -/
theorem close (hk : Keeps unique trace q) : Keeps unique (trace ++ [.closed]) q.close := by
  obtain ⟨discarded, haccount, -, -⟩ := hk.account
  refine ⟨⟨q.events ++ discarded, ?_, fun hnot => absurd (by simp) hnot, fun hopen => nomatch hopen⟩,
    hk.dedupe, fun _ => List.nodup_nil, fun _ => rfl, fun hmem => ?_⟩
  · rw [queued_snoc, handed_snoc, haccount]
    simp [Handling.queued?, Handling.handed?, EventQueue.close]
  · exact ⟨(hk.ended (by simpa using hmem)).cancelled, rfl⟩

/-- **One step** hands the account on. -/
theorem step (hk : Keeps unique trace q) {label : Handling} (h : Serves q label q') :
    Keeps unique (trace ++ [label]) q' := by
  cases h with
  | submit e => exact hk.submit e
  | give h => exact hk.give h
  | refuse h => exact hk.idle rfl rfl nofun
  | cancel => exact hk.cancel
  | close => exact hk.close

theorem delivers (hk : Keeps unique trace q) : Delivers unique trace q where
  order := by
    obtain ⟨discarded, haccount, -⟩ := hk.account
    rw [haccount, List.append_assoc]
    exact List.prefix_append _ _
  account := by
    obtain ⟨discarded, haccount, htrace, -⟩ := hk.account
    exact ⟨discarded, haccount, htrace⟩
  dedupe := hk.dedupe
  distinct := hk.distinct
  duplicate e hduplicate := by
    obtain ⟨-, hanswer, -⟩ | ⟨-, hdedupe, hmem, -, hafter⟩ | ⟨-, -, hanswer, -⟩ := q.submission_cases e
    · rw [hanswer] at hduplicate
      cases hduplicate
    · exact ⟨hk.dedupe.symm.trans hdedupe, hmem, hafter⟩
    · rw [hanswer] at hduplicate
      cases hduplicate
  ended hmem := by
    have hended := hk.ended hmem
    refine ⟨hended.next, fun e => ?_⟩
    simp [answer, offer, hended.submit, Except.map]

end Keeps

/-- **Every run of a queue** that was empty at first. -/
theorem delivers_of_execution {unique : Bool} (h : Execution Serves { dedupe := unique } trace q) :
    Delivers unique trace q :=
  (h.invariant (P := Keeps unique) (keeps_empty unique) fun _ hk hstep => hk.step hstep).delivers

end EventQueue

/-! ### The dispatcher -/

namespace Target

/-- What is read of frames makes no difference to how an end is told. -/
theorem Rereads.terminate {t t' : Target} (h : t.Rereads t') (hr : t.registry.Exact) (fault : Option Fault) :
    (t'.terminate fault).1 = (t.terminate fault).1 := by
  have hids (r : Registry) : r.terminateAll.1 =
      (r.entries.filter fun entry => entry.2 ≠ .terminated).map Prod.fst := by
    simp [Registry.terminateAll, Registry.entries, List.filter_map, Function.comp_def]
  have hended : t'.registry.terminateAll.1 = t.registry.terminateAll.1 := by
    rw [hids, hids, h.entries hr]
  by_cases hover : t.state = .terminated
  · simp [Target.terminate, isTerminated, h.state, hover]
  · simp [Target.terminate, isTerminated, h.state, hover, hended]

end Target

namespace Session

variable {s s' : Session} {tasks : List Task} {trace later : List Occurrence}

/-- What the listener is told last if client code fails while an event is handled. -/
def teardown (kind : String) (t : Target) (message : String) : List Task :=
  (t.terminate (some { event := kind, message })).1.map .lastCallback

/-- All that is delivered in a run is what some tasks deliver, in their order and perhaps not to the end;
where client code fails in one of them, what comes after it is the teardown, and nothing else. -/
def DeliversOnly (tasks : List Task) (teardown : String → List Task) (trace : List Occurrence) : Prop :=
  ((∀ o ∈ trace, ¬o.IsFailure) ∧ shownIn trace <+: shownTasks tasks) ∨
  ∃ first task message last, trace = first ++ .failed task message :: last ∧
    (∀ o ∈ first ++ last, ¬o.IsFailure) ∧
    shownIn (first ++ [.failed task message]) <+: shownTasks tasks ∧
    shownIn last <+: teardown message

/-- Nobody has failed since some tasks were to be done: what was delivered of them, and what the agenda
will deliver. -/
structure Pursues (tasks : List Task) (kind : String) (t : Target) (trace : List Occurrence) (s : Session) :
    Prop where
  safe : ∀ o ∈ trace, ¬o.IsFailure
  deliveries : shownIn trace ++ shownTasks s.worker.agenda = shownTasks tasks
  event : s.worker.event = kind
  target : t.Rereads s.target

/-- Client code has failed in one of them, and the agenda is that of the teardown, in which client code
cannot fail again. -/
structure Collapses (tasks : List Task) (kind : String) (t : Target) (first : List Occurrence) (task : Task)
    (message : String) (last : List Occurrence) (s : Session) : Prop where
  safe : ∀ o ∈ first ++ last, ¬o.IsFailure
  before : shownIn (first ++ [.failed task message]) <+: shownTasks tasks
  deliveries : shownIn last ++ shownTasks s.worker.agenda = teardown kind t message
  guarded : ∀ task ∈ s.worker.agenda, isFatal task = false

/-- **The invariant** of a run in which no further event is taken. -/
def Underway (tasks : List Task) (kind : String) (t : Target) (trace : List Occurrence) (s : Session) : Prop :=
  Pursues tasks kind t trace s ∨
  ∃ first task message last, trace = first ++ .failed task message :: last ∧
    Collapses tasks kind t first task message last s

variable {kind : String} {t : Target}

/-- A step in which nothing fails, and that delivers what is in front of the agenda. -/
theorem Pursues.next (h : Pursues tasks kind t trace s) {o : Occurrence} (hsafe : ¬o.IsFailure)
    (hagenda : o.shows ++ shownTasks s'.worker.agenda = shownTasks s.worker.agenda)
    (hevent : s'.worker.event = s.worker.event) (htarget : s.target.Rereads s'.target) :
    Pursues tasks kind t (trace ++ [o]) s' where
  safe := by
    intro o' hmem
    obtain hmem | hlast := List.mem_append.mp hmem
    · exact h.safe o' hmem
    · rwa [List.mem_singleton.mp hlast]
  deliveries := by
    rw [shownIn_append, shownIn_single, List.append_assoc, hagenda, h.deliveries]
  event := hevent.trans h.event
  target := h.target.trans htarget

theorem Collapses.next {first last : List Occurrence} {task : Task} {message : String}
    (h : Collapses tasks kind t first task message last s) {o : Occurrence} (hsafe : ¬o.IsFailure)
    (hagenda : o.shows ++ shownTasks s'.worker.agenda = shownTasks s.worker.agenda)
    (hguarded : ∀ task ∈ s'.worker.agenda, task ∈ s.worker.agenda ∨ task ∈ closing .cancelled) :
    Collapses tasks kind t first task message (last ++ [o]) s' where
  safe := by
    intro o' hmem
    rw [← List.append_assoc] at hmem
    obtain hmem | hlast := List.mem_append.mp hmem
    · exact h.safe o' hmem
    · rwa [List.mem_singleton.mp hlast]
  before := h.before
  deliveries := by
    rw [shownIn_append, shownIn_single, List.append_assoc, hagenda, h.deliveries]
  guarded := by
    intro task hmem
    obtain hmem | hclosing := hguarded task hmem
    · exact h.guarded task hmem
    · simp only [closing, List.mem_cons, List.not_mem_nil, or_false] at hclosing
      obtain rfl | rfl | rfl | rfl | rfl := hclosing <;> rfl

/-- The same of the invariant. -/
theorem Underway.next (h : Underway tasks kind t trace s) {o : Occurrence} (hsafe : ¬o.IsFailure)
    (hagenda : o.shows ++ shownTasks s'.worker.agenda = shownTasks s.worker.agenda)
    (hguarded : ∀ task ∈ s'.worker.agenda, task ∈ s.worker.agenda ∨ task ∈ closing .cancelled)
    (hevent : s'.worker.event = s.worker.event) (htarget : s.target.Rereads s'.target) :
    Underway tasks kind t (trace ++ [o]) s' := by
  obtain hpursues | ⟨first, task, message, last, rfl, hcollapses⟩ := h
  · exact .inl (hpursues.next hsafe hagenda hevent htarget)
  · refine .inr ⟨first, task, message, last ++ [o], ?_, hcollapses.next hsafe hagenda hguarded⟩
    rw [List.append_assoc, List.cons_append]

/-- **A failure** is in one of the tasks, and the teardown is all that is left. -/
theorem Underway.fail (h : Underway tasks kind t trace s) (hr : t.registry.Exact) {task : Task}
    (hperform : s.perform? = some (task, s')) (hfatal : isFatal task = true) (message : String) :
    Underway tasks kind t (trace ++ [.failed task message]) (s'.fail message) := by
  obtain ⟨rest, hagenda, rfl⟩ := perform?_cases hperform
  obtain hpursues | ⟨first, task', message', last, rfl, hcollapses⟩ := h
  · refine .inr ⟨trace, task, message, [], rfl, ?_, ?_, ?_, ?_⟩
    · rw [List.append_nil]
      exact hpursues.safe
    · -- the task that failed was in front of the agenda
      have hshown : shownIn (trace ++ [.failed task message]) = shownIn trace ++ [task] := by
        simp [Occurrence.shows]
      rw [← hpursues.deliveries, hagenda, shownTasks_cons, shownTasks_of_isFatal hfatal,
        ← List.append_assoc, hshown]
      exact List.prefix_append _ _
    · have hevent : ((s.withAgenda rest).effect task).worker.event = kind := by
        rw [← hpursues.event]
        cases task with
        | callback | command => rfl
        | release | releaseAll | lastCallback | followUp | forward | closeQueue | closeGate | forwardClosed
        | announceClosed | finish => cases hfatal
      -- The last callbacks are those that the target has left to tell, whatever was shown before.
      have hcallbacks := hpursues.target.terminate hr (some { event := kind, message })
      have hlast (cs : List Callback) (exit : Exit) :
          shownTasks (.releaseAll :: cs.map .lastCallback ++ closing exit) = cs.map .lastCallback := by
        rw [shownTasks_append, shownTasks_closing, List.append_nil]
        exact shownTasks_lastCallbacks cs
      simp only [Session.fail, hevent, target_effect, shownIn_nil, List.nil_append, hlast]
      exact congrArg (List.map Task.lastCallback) hcallbacks
    · intro other hmem
      simp only [Session.fail, closing, List.mem_append, List.mem_cons, List.mem_map, List.not_mem_nil,
        or_false] at hmem
      obtain (rfl | ⟨c, -, rfl⟩) | rfl | rfl | rfl | rfl | rfl := hmem <;> rfl
  -- After one failure client code is guarded, so there is no second one.
  · have hguarded := hcollapses.guarded task (by rw [hagenda]; exact List.mem_cons_self)
    rw [hguarded] at hfatal
    cases hfatal

/-- No task changes which event is being handled. -/
theorem event_effect (s : Session) (task : Task) : (s.effect task).worker.event = s.worker.event := by
  cases task with
  | followUp c =>
      obtain ⟨cs, -, hc, -⟩ := s.commanded_submit c
      exact (congrArg Worker.event hc.worker :)
  | release | releaseAll | callback | command | forward | lastCallback | closeQueue | closeGate
  | forwardClosed | announceClosed | finish => rfl

/-- **One step** hands the invariant on, unless an event is taken in it. -/
theorem Underway.step (h : Underway tasks kind t trace s) (hr : t.registry.Exact) {o : Occurrence}
    (hstep : Occurs s o s') (htakes : ¬o.Takes) : Underway tasks kind t (trace ++ [o]) s' := by
  -- A call shows nothing, and leaves the target and the agenda as they are.
  have hcall (c : Call) {o : Occurrence} (hsafe : ¬o.IsFailure) (hshows : o.shows = []) :
      Underway tasks kind t (trace ++ [o]) (c.run s) := by
    obtain ⟨htarget, hworker⟩ := s.call_frame c
    refine h.next hsafe ?_ (fun task hmem => .inl ?_) (by rw [hworker]) htarget
    · rw [hshows, hworker, List.nil_append]
    · rwa [hworker] at hmem
  cases hstep with
  | fail hperform hfatal message => exact h.fail hr hperform hfatal message
  | run hstep =>
      cases hstep with
      | call c hall => exact hcall c (fun hfailure => hfailure) rfl
      | resumeAll => exact hcall (.control .resumeAll) (fun hfailure => hfailure) rfl
      | take htake =>
          obtain ⟨hagenda, -, ⟨e, rest, hnext, -⟩ | ⟨hnext, -, rfl⟩⟩ := take?_next htake
          · rw [hnext] at htakes
            exact absurd trivial htakes
          · refine h.next (fun hfailure => hfailure) ?_ (fun task hmem => .inr hmem) rfl (.refl _)
            rw [hagenda, agenda_withAgenda]
            rfl
      | perform hperform =>
          obtain ⟨rest, hagenda, rfl⟩ := perform?_cases hperform
          refine h.next (fun hfailure => hfailure) ?_ (fun task hmem => .inl ?_) (event_effect _ _) ?_
          · rw [agenda_effect, agenda_withAgenda, hagenda]
            exact (shownTasks_cons ..).symm
          · rw [agenda_effect, agenda_withAgenda] at hmem
            rw [hagenda]
            exact List.mem_cons_of_mem _ hmem
          · rw [target_effect]
            exact .refl _

/-- **A run** in which no event is taken. -/
theorem Underway.run (h : Underway tasks kind t trace s) (hr : t.registry.Exact)
    (hrun : Execution Occurs s later s') (hnone : ∀ o ∈ later, ¬o.Takes) :
    Underway tasks kind t (trace ++ later) s' := by
  induction hrun with
  | start => rwa [List.append_nil]
  | next before last ih =>
      have hbefore := ih fun o hmem => hnone o (List.mem_append_left _ hmem)
      rw [← List.append_assoc]
      exact hbefore.step hr last (hnone _ (by simp))

/-- The cancellation of the queue is none of its business. -/
theorem Underway.cancel (h : Underway tasks kind t trace s) : Underway tasks kind t trace s.cancel :=
  h.imp (fun hp => { hp with }) fun ⟨first, task, message, last, htrace, hc⟩ =>
    ⟨first, task, message, last, htrace, { hc with }⟩

/-- What it says of the deliveries. -/
theorem Underway.deliversOnly (h : Underway tasks kind t trace s) :
    DeliversOnly tasks (teardown kind t) trace := by
  obtain hpursues | ⟨first, task, message, last, rfl, hcollapses⟩ := h
  · exact .inl ⟨hpursues.safe, hpursues.deliveries ▸ List.prefix_append _ _⟩
  · exact .inr ⟨first, task, message, last, rfl, hcollapses.safe, hcollapses.before,
      hcollapses.deliveries ▸ List.prefix_append _ _⟩

/-! ### The queue of a session -/

/-- What a call does to the queue: it submits some events, or it is the cancellation. -/
theorem queue_call (s : Session) (c : Call) :
    (∃ es, (c.run s).queue = s.queue.offers es) ∨ (c.run s).queue = s.queue.cancel := by
  cases c with
  | report n =>
      cases haccept : s.gate.accept n with
      | error cause => exact .inl ⟨[], by rw [Call.run, notify_of_error haccept]; rfl⟩
      | ok gate => exact .inl ⟨[.notification n], by rw [Call.run, notify_of_ok haccept]; rfl⟩
  | abandonPause id => exact .inl ⟨[], rfl⟩
  | control c =>
      by_cases hc : c.Submits
      · exact .inl ⟨_, congrArg Session.queue (ControlCall.run_eq s hc)⟩
      · cases c with
        | cancel => exact .inr rfl
        | readVariables bindings id slot =>
            refine .inl ⟨[], ?_⟩
            show (s.readVariables bindings id slot).2.queue = s.queue
            unfold readVariables
            split <;> rfl
        | terminate =>
            have horder := congrArg Session.queue (s.order_offer .terminate)
            show (∃ es, s.terminate.2.queue = s.queue.offers es) ∨ _
            unfold Session.terminate
            split
            · exact .inl ⟨[], rfl⟩
            · refine .inl ⟨[.command .terminate], ?_⟩
              split <;> simp_all
        | resume | resumeAll | disconnect | addBreakpoint | removeBreakpoint | setBreakpoint =>
            exact absurd trivial hc

/-- The event that the dispatcher took, if it took one. -/
def Occurrence.taken? : Occurrence → Option Event
  | .ran (.took e) => e
  | _ => none

/-- The events that the dispatcher took. -/
def taken (trace : List Occurrence) : List Event :=
  trace.filterMap Occurrence.taken?

@[simp] theorem taken_snoc (trace : List Occurrence) (o : Occurrence) :
    taken (trace ++ [o]) = taken trace ++ o.taken?.toList := by
  cases ho : o.taken? <;> simp [taken, ho]

open EventQueue in
/-- **One step of a session** is some steps of its queue, which hands out what the dispatcher takes. -/
theorem Occurs.serves {o : Occurrence} (hstep : Occurs s o s') :
    ∃ handlings, Execution Serves s.queue handlings s'.queue ∧ handed handlings = o.taken?.toList := by
  -- A call offers events to the queue, or cancels it.
  have hcall (c : Call) : ∃ handlings, Execution Serves s.queue handlings (c.run s).queue ∧
      handed handlings = [] := by
    obtain ⟨es, hqueue⟩ | hqueue := s.queue_call c
    · rw [hqueue]
      exact s.queue.serves_offers es
    · rw [hqueue]
      exact ⟨_, .single (.cancel s.queue), rfl⟩
  -- A task offers its follow-up, or closes the queue.
  have htask {task : Task} {next : Session} (hperform : s.perform? = some (task, next)) :
      ∃ handlings, Execution Serves s.queue handlings next.queue ∧ handed handlings = [] := by
    obtain ⟨rest, -, rfl⟩ := perform?_cases hperform
    cases task with
    | followUp c =>
        rw [effect, submit_offer]
        exact ⟨_, .single (.submit s.queue (.command c)), rfl⟩
    | closeQueue => exact ⟨_, .single (.close s.queue), rfl⟩
    | release | releaseAll | callback | command | forward | lastCallback | closeGate | forwardClosed
    | announceClosed | finish => exact ⟨[], .start, rfl⟩
  cases hstep with
  | fail hperform hfatal message =>
      have hqueue := htask hperform
      exact hqueue
  | run hstep =>
      cases hstep with
      | call c hall => exact hcall c
      | resumeAll => exact hcall (.control .resumeAll)
      | perform hperform => exact htask hperform
      | take htake =>
          obtain ⟨-, -, ⟨e, rest, hnext, hlive, hevents, rfl⟩ | ⟨hnext, hend, rfl⟩⟩ := take?_next htake
          · rw [hnext, queue_handle]
            refine ⟨_, .single (.give (e := e) ?_), rfl⟩
            simp [EventQueue.next, hlive, hevents, withEvents]
          · rw [hnext]
            exact ⟨[], .start, rfl⟩

open EventQueue in
/-- **The queue of a session** is a queue as above, whatever occurs. -/
theorem serves_of_occurs {settings : DebuggerSettings} (h : Execution Occurs (create settings) trace s) :
    ∃ handlings, Execution Serves { dedupe := settings.dedupeQueuedEvents } handlings s.queue ∧
      handed handlings = taken trace := by
  refine h.invariant (P := fun trace s => ∃ handlings,
    Execution Serves { dedupe := settings.dedupeQueuedEvents } handlings s.queue ∧
      handed handlings = taken trace) ⟨[], .start, rfl⟩ fun _ ih last => ?_
  obtain ⟨handlings, hrun, hhanded⟩ := ih
  obtain ⟨more, hmore, hlast⟩ := last.serves
  exact ⟨handlings ++ more, hrun.append hmore, by rw [handed_append, hhanded, hlast, taken_snoc]⟩

/-! ### After a cancellation -/

/-- Nobody takes a cancellation back. -/
theorem cancelled_call {c : Call} (h : s.queue.cancelled = true) : (c.run s).queue.cancelled = true := by
  cases c with
  | report n =>
      obtain ⟨-, -, -, hqueue | hqueue⟩ := s.notify_frame n <;> rw [Call.run, hqueue] <;> exact h
  | abandonPause id => exact h
  | control c =>
      by_cases hcancel : c = .cancel
      · subst hcancel
        show s.queue.cancel.cancelled = true
        rw [EventQueue.cancel, if_pos h]
        exact h
      · obtain ⟨cs, hcs⟩ := c.commanded s hcancel
        rw [Call.run, hcs.queue]
        exact h

/-- **A cancelled queue** stays cancelled, and nothing is taken from it. -/
theorem Occurs.cancelled {o : Occurrence} (hstep : Occurs s o s') (h : s.queue.cancelled = true) :
    s'.queue.cancelled = true ∧ ¬o.Takes := by
  cases hstep with
  | fail hperform hfatal message =>
      obtain ⟨rest, -, rfl⟩ := perform?_cases hperform
      exact ⟨(cancelled_effect _ _).trans h, fun htakes => htakes⟩
  | run hstep =>
      cases hstep with
      | call c hall => exact ⟨cancelled_call h, fun htakes => htakes⟩
      | resumeAll => exact ⟨cancelled_call (c := .control .resumeAll) h, fun htakes => htakes⟩
      | take htake =>
          obtain ⟨-, -, ⟨e, rest, -, hlive, -⟩ | ⟨hnext, -, rfl⟩⟩ := take?_next htake
          · rw [hlive] at h
            cases h
          · refine ⟨h, fun htakes => ?_⟩
            rw [hnext] at htakes
            exact htakes
      | perform hperform =>
          obtain ⟨rest, -, rfl⟩ := perform?_cases hperform
          exact ⟨(cancelled_effect _ _).trans h, fun htakes => htakes⟩

/-- Nothing is taken in all of a run that begins with a cancelled queue. -/
theorem takes_none_of_cancelled (hrun : Execution Occurs s later s') (h : s.queue.cancelled = true) :
    s'.queue.cancelled = true ∧ ∀ o ∈ later, ¬o.Takes := by
  refine hrun.invariant (P := fun later s' => s'.queue.cancelled = true ∧ ∀ o ∈ later, ¬o.Takes)
    ⟨h, fun o hmem => nomatch hmem⟩ fun _ ih last => ?_
  obtain ⟨hcancelled, hnone⟩ := ih
  obtain ⟨hcancelled', hlast⟩ := last.cancelled hcancelled
  refine ⟨hcancelled', fun o hmem => ?_⟩
  obtain hmem | hlabel := List.mem_append.mp hmem
  · exact hnone o hmem
  · rwa [List.mem_singleton.mp hlabel]

theorem cancelled_cancel (s : Session) : s.cancel.queue.cancelled = true := by
  show s.queue.cancel.cancelled = true
  unfold EventQueue.cancel
  split
  · assumption
  · rfl

/-- The only command that the handling of an event delivers is the event itself; none that follows from it
is delivered by it. -/
theorem command_of_mem_tasksAfter {e : Event} {c : Command}
    (h : .command c ∈ s.tasksAfter e ∨ .forward c ∈ s.tasksAfter e) : e = .command c := by
  cases e with
  | notification n =>
      have hclosing : .command c ∉ closing .engineTerminated ∧ .forward c ∉ closing .engineTerminated := by
        simp [closing]
      simp only [tasksAfter, notificationTasks] at h
      split at h <;> simp [hclosing] at h
  | command c' =>
      have hrelease : .command c ∉ releaseTasks c' ∧ .forward c ∉ releaseTasks c' := by
        cases c' <;> simp [releaseTasks]
      have hclosing : .command c ∉ closing .disconnected ∧ .forward c ∉ closing .disconnected := by
        simp [closing]
      simp only [tasksAfter, commandTasks] at h
      split at h
      · split at h <;> simpa [hrelease, hclosing, eq_comm] using h
      · simp at h

/-- What is delivered is a task of those in hand, or a callback of the teardown. -/
theorem DeliversOnly.mem {kind : String} {t : Target} (h : DeliversOnly tasks (teardown kind t) trace)
    {task : Task} (hmem : task ∈ shownIn trace) : task ∈ tasks ∨ ∃ c, task = .lastCallback c := by
  have hof {shown : List Task} (hshown : shown <+: shownTasks tasks) (hmem : task ∈ shown) : task ∈ tasks :=
    (List.mem_filter.mp (hshown.subset hmem)).1
  obtain ⟨-, hshown⟩ | ⟨first, failed, message, last, rfl, -, hfirst, hlast⟩ := h
  · exact .inl (hof hshown hmem)
  · rw [show first ++ .failed failed message :: last = (first ++ [.failed failed message]) ++ last by simp,
      shownIn_append] at hmem
    obtain hmem | hmem := List.mem_append.mp hmem
    · exact .inl (hof hfirst hmem)
    · obtain ⟨c, -, rfl⟩ := List.mem_map.mp (hlast.subset hmem)
      exact .inr ⟨c, rfl⟩

/-- **Events are delivered in order, each once, until the queue is cancelled.**

* For every run of a queue that was empty at first, by any number of parties, with or without the rule
  against duplicates: `EventQueue.Delivers`.
* The queue of a session is such a queue, whatever occurs, and hands out what the dispatcher takes.
* For every run of a session, cancelled while the dispatcher is busy with the event it took last: no event
  is taken after that, and all that is delivered from the taking on is what this event left to do, or the
  teardown where client code fails in it. The only command among it is the event itself, so no command that
  follows from the event is delivered.
* If no event was taken before, nothing is delivered at all. -/
theorem events_are_delivered_in_order :
    (∀ (unique : Bool) (trace : List EventQueue.Handling) (q : EventQueue),
      Execution EventQueue.Serves { dedupe := unique } trace q → q.Delivers unique trace) ∧
    (∀ (settings : DebuggerSettings) (trace : List Occurrence) (s : Session),
      Execution Occurs (create settings) trace s → ∃ handlings,
        Execution EventQueue.Serves { dedupe := settings.dedupeQueuedEvents } handlings s.queue ∧
        EventQueue.handed handlings = taken trace) ∧
    (∀ (settings : DebuggerSettings) (before : List Occurrence) (s₀ : Session) (e : Event) (s₁ : Session)
      (during : List Occurrence) (s : Session) (later : List Occurrence) (s' : Session),
      Execution Occurs (create settings) before s₀ → s₀.nextEvent? = some e → s₀.take? = some s₁ →
      Execution Occurs s₁ during s → (∀ o ∈ during, ¬o.Takes) → Execution Occurs s.cancel later s' →
        (∀ o ∈ later, ¬o.Takes) ∧
        DeliversOnly (s₀.tasksAfter e) (teardown e.kind (s₀.targetAfter e)) (during ++ later) ∧
        ∀ c, .command c ∈ shownIn (during ++ later) ∨ .forward c ∈ shownIn (during ++ later) →
          e = .command c) ∧
    ∀ (settings : DebuggerSettings) (during : List Occurrence) (s : Session) (later : List Occurrence)
      (s' : Session), Execution Occurs (create settings) during s → (∀ o ∈ during, ¬o.Takes) →
      Execution Occurs s.cancel later s' →
        (∀ o ∈ later, ¬o.Takes) ∧ shownIn (during ++ later) = [] := by
  -- from where some tasks are all that is to be done, through a cancellation
  have hthrough {settings : DebuggerSettings} {before during later : List Occurrence} {s₁ s s' : Session}
      {tasks : List Task} {kind : String} (hbefore : Execution Occurs (create settings) before s₁)
      (hagenda : s₁.worker.agenda = tasks) (hevent : s₁.worker.event = kind)
      (hduring : Execution Occurs s₁ during s) (hnone : ∀ o ∈ during, ¬o.Takes)
      (hlater : Execution Occurs s.cancel later s') : (∀ o ∈ later, ¬o.Takes) ∧
        DeliversOnly tasks (teardown kind s₁.target) (during ++ later) := by
    have hfirst : Underway tasks kind s₁.target [] s₁ := by
      refine .inl ⟨by simp, ?_, hevent, .refl _⟩
      rw [hagenda, shownIn_nil, List.nil_append]
    obtain ⟨-, hstill⟩ := takes_none_of_cancelled hlater s.cancelled_cancel
    have hr := exact_of_occurs hbefore
    exact ⟨hstill, ((hfirst.run hr hduring hnone).cancel.run hr hlater hstill).deliversOnly⟩
  refine ⟨fun unique trace q h => EventQueue.delivers_of_execution h,
    fun settings trace s h => serves_of_occurs h, ?_, ?_⟩
  · intro settings before s₀ e s₁ during s later s' hbefore hnext htake hduring hnone hlater
    obtain ⟨-, -, ⟨e', rest, hnext', -, -, rfl⟩ | ⟨hnext', -⟩⟩ := take?_next htake
    -- The tasks are those of the event, and each command among them is the event itself.
    · obtain rfl : e = e' := Option.some.inj (hnext.symm.trans hnext')
      have hkind : ((s₀.withEvents rest).handle e).worker.event = e.kind := by rw [handle_eq]
      obtain ⟨hstill, honly⟩ := hthrough (hbefore.next (.run (.take htake))) rfl hkind hduring hnone hlater
      rw [agenda_handle, tasksAfter_withEvents, target_handle, targetAfter_withEvents] at honly
      refine ⟨hstill, honly, fun c hc => s₀.command_of_mem_tasksAfter ?_⟩
      exact hc.imp (fun hmem => (honly.mem hmem).resolve_right nofun)
        fun hmem => (honly.mem hmem).resolve_right nofun
    · rw [hnext] at hnext'
      cases hnext'
  · intro settings during s later s' hduring hnone hlater
    obtain ⟨hstill, honly⟩ := hthrough .start rfl rfl hduring hnone hlater
    refine ⟨hstill, List.eq_nil_iff_forall_not_mem.mpr fun task hmem => ?_⟩
    obtain ⟨-, hshown⟩ | ⟨first, failed, message, last, -, -, hfirst, -⟩ := honly
    · exact List.not_mem_nil (hshown.subset hmem)
    -- What failed would have been shown, and there is nothing to show.
    · have hfailed : failed ∈ shownIn (first ++ [.failed failed message]) := by simp [Occurrence.shows]
      exact List.not_mem_nil (hfirst.subset hfailed)

/-- The session in which a script was announced, once the announcement was taken and the listener knows of
the thread. -/
def introduced : Session :=
  Nat.repeat stepped 2 loading

/-- A queue against duplicates drops an event while an equal one waits, and is then cancelled. A session is
cancelled while it handles the load of a script: the listener is told the rest of it, but the decision to
let the thread go on, which follows from it, is queued no more and never delivered. -/
theorem events_are_delivered_in_order_introduced :
    (∃ trace q, Execution EventQueue.Serves { dedupe := true } trace q ∧
      EventQueue.handed trace = [] ∧ q.events = [.command .terminate] ∧ q.next = .none) ∧
    ∃ before during later s', Execution Occurs (create {}) before loading ∧
      Execution Occurs introduced.cancel later s' ∧ s'.worker.exit = some .cancelled ∧
      shownIn during = [.callback (.threadCreated ⟨1⟩)] ∧
      shownIn later = [.callback (.stackFramesChanged ⟨1⟩), .callback (.threadStateChanged ⟨1⟩ .suspended)] ∧
      DeliversOnly (loading.tasksAfter (.notification firstLoad))
        (teardown "scriptReady" (loading.targetAfter (.notification firstLoad))) (during ++ later) := by
  obtain ⟨hqueue, -, hsession, -⟩ := events_are_delivered_in_order
  constructor
  · have hfirst := Execution.single (EventQueue.Serves.submit { dedupe := true } (.command .terminate))
    have hagain := hfirst.next (.submit _ (.command .terminate))
    have hcancelled := hagain.next (.cancel _)
    exact ⟨_, _, hcancelled, rfl, rfl, ((hqueue true _ _ hcancelled).ended (by simp)).1⟩
  · have hreport := Execution.single (Occurs.run (.call (create {}) (.report .engineStarted) nofun))
    have hbegun : Execution Occurs (create {}) _ begun :=
      (hreport.next (.run (.take rfl))).next (.run (.perform rfl))
    have hloading : Execution Occurs (create {}) _ loading :=
      hbegun.next (.run (.call begun (.report firstLoad) nofun))
    have hduring : Execution Occurs (stepped loading) _ introduced := .single (.run (.perform rfl))
    -- the rest of the load, with the decision that is lost, and the end of the dispatcher
    have hloaded := ((Execution.single (Occurs.run (.perform (s := introduced.cancel) rfl))).next
      (.run (.perform rfl))).next (.run (.perform rfl))
    have hlater := (((((hloaded.next (.run (.take rfl))).next (.run (.perform rfl))).next
      (.run (.perform rfl))).next (.run (.perform rfl))).next (.run (.perform rfl))).next (.run (.perform rfl))
    obtain ⟨-, honly, -⟩ := hsession {} _ loading (.notification firstLoad) (stepped loading) _ introduced _ _
      hloading rfl rfl hduring (by simp [Occurrence.Takes]) hlater
    exact ⟨_, _, _, _, hloading, hlater, rfl, rfl, rfl, honly⟩

end Session

end Pausepoint
