import Pausepoint.Proofs.Session.Likeness
import Pausepoint.Proofs.Session.Turns

/-!
# Pausepoint.Proofs.Session.Indifference

What a thread can tell of a session while calls are made and events are dispatched.

`Session.Alike` puts the likeness of gate, queue and target together with what is left to do. As there,
everything has two laws: what concerns a thread is answered alike by two sessions that are alike to it, and
leaves them alike; what concerns another thread leaves a session alike to what it was.

* `Call`, `Call.concerns` — what either side may call, and for whom; `Session.alike_resumeAll` reduces the
  call that lets all threads go on to one decision for each thread that is found suspended;
* `Task.concerns`, `ownTasks` — what the dispatcher has left to do for a thread;
* `Session.Alike.call`, `Session.Alike.take`, `Session.Alike.perform` — what concerns the thread, over two
  sessions;
* `Session.alike_call`, `Session.alike_take`, `Session.alike_perform` — what does not, over one.
-/

namespace Pausepoint

variable {id : ThreadId}

/-! ### Tasks -/

/-- Is a task about this thread, or about the whole session? -/
def Task.concerns : Task → ThreadId → Bool
  | .release thread, id => decide (thread = id)
  | .callback c, id | .lastCallback c, id => c.concerns id
  | .followUp c, id | .command c, id | .forward c, id => c.concerns id
  | .releaseAll, _ | .closeQueue, _ | .closeGate, _ | .forwardClosed, _ | .announceClosed, _
  | .finish _, _ => true

/-- The tasks of an agenda that concern a thread. -/
def ownTasks (id : ThreadId) (tasks : List Task) : List Task :=
  tasks.filter fun task => task.concerns id

@[simp] theorem ownTasks_nil : ownTasks id [] = [] := rfl

@[simp] theorem ownTasks_append (tasks later : List Task) :
    ownTasks id (tasks ++ later) = ownTasks id tasks ++ ownTasks id later :=
  List.filter_append tasks later

theorem ownTasks_cons_own {task : Task} (h : task.concerns id = true) (rest : List Task) :
    ownTasks id (task :: rest) = task :: ownTasks id rest :=
  List.filter_cons_of_pos h

theorem ownTasks_cons_other {task : Task} (h : task.concerns id = false) (rest : List Task) :
    ownTasks id (task :: rest) = ownTasks id rest :=
  List.filter_cons_of_neg (by simp [h])

theorem ownTasks_callbacks (cs : List Callback) :
    ownTasks id (cs.map .callback) = (cs.filter fun c => c.concerns id).map .callback :=
  List.filter_map

theorem ownTasks_followUps (cs : List Command) :
    ownTasks id (cs.map .followUp) = (cs.filter fun c => c.concerns id).map .followUp :=
  List.filter_map

/-- Effects of which a thread notices the same leave it the same tasks. -/
theorem Effects.Alike.notificationTasks {e f : Effects} (h : Effects.Alike id e f) (n : Notification) :
    ownTasks id (notificationTasks n f) = ownTasks id (Pausepoint.notificationTasks n e) := by
  simp only [Pausepoint.notificationTasks, ownTasks_append, ownTasks_callbacks, ownTasks_followUps,
    h.callbacks, h.followUps]

theorem Effects.Alike.commandTasks {e f : Effects} (h : Effects.Alike id e f) (c : Command) :
    ownTasks id (commandTasks c f) = ownTasks id (Pausepoint.commandTasks c e) := by
  unfold Pausepoint.commandTasks
  rw [h.deliver]
  split <;> simp only [ownTasks_append, ownTasks_callbacks, ownTasks_followUps, h.callbacks, h.followUps]

/-- Reading variables is no matter of identities. -/
theorem DebugThread.id_readVariables (t : DebugThread) (bindings : ScopeId → Entries) (slot : Nat) :
    (t.readVariables bindings slot).2.id = t.id := by
  unfold readVariables
  split <;> rfl

namespace Session

/-! ### Sessions that a thread cannot tell apart -/

/-- Two sessions that are alike to a thread. -/
structure Alike (id : ThreadId) (s q : Session) : Prop where
  gate : Gate.Alike id s.gate q.gate
  queue : EventQueue.Alike id s.queue q.queue
  target : Target.Alike id s.target q.target
  breakpoints : q.breakpoints = s.breakpoints
  terminateRequested : q.terminateRequested = s.terminateRequested
  agenda : ownTasks id q.worker.agenda = ownTasks id s.worker.agenda
  exit : q.worker.exit = s.worker.exit

variable {s q s' q' : Session}

theorem Alike.refl (id : ThreadId) (s : Session) : Alike id s s :=
  ⟨.refl id _, .refl id _, .refl id _, rfl, rfl, rfl, rfl⟩

theorem Alike.symm (h : Alike id s q) : Alike id q s :=
  ⟨h.gate.symm, h.queue.symm, h.target.symm, h.breakpoints.symm, h.terminateRequested.symm, h.agenda.symm,
    h.exit.symm⟩

theorem Alike.trans {r : Session} (h : Alike id s q) (h' : Alike id q r) : Alike id s r :=
  ⟨h.gate.trans h'.gate, h.queue.trans h'.queue, h.target.trans h'.target,
    h'.breakpoints.trans h.breakpoints, h'.terminateRequested.trans h.terminateRequested,
    h'.agenda.trans h.agenda, h'.exit.trans h.exit⟩

theorem Alike.isTerminated (h : Alike id s q) : q.isTerminated = s.isTerminated :=
  h.target.isTerminated

/-! ### Reports and commands -/

theorem Alike.submit (h : Alike id s q) {e : Event} (he : e.concerns id = true) :
    (q.submit e).1 = (s.submit e).1 ∧ Alike id (s.submit e).2 (q.submit e).2 := by
  unfold Session.submit
  obtain ⟨cause, hs, hq⟩ | ⟨submitted, queue, queue', hs, hq, hqueue⟩ := h.queue.submit he
  · simp only [hs, hq]
    exact ⟨trivial, h⟩
  · simp only [hs, hq]
    exact ⟨trivial, { h with queue := hqueue }⟩

theorem alike_submit (s : Session) {e : Event} (he : e.concerns id = false) :
    Alike id s (s.submit e).2 := by
  unfold submit
  split
  · next hqueue => exact { Alike.refl id s with queue := EventQueue.alike_submit he hqueue }
  · exact .refl id s

/-- **A report that concerns the thread** is answered alike. -/
theorem Alike.notify (h : Alike id s q) {n : Notification} (hn : n.concerns id = true) :
    (q.notify n).1 = (s.notify n).1 ∧ Alike id (s.notify n).2 (q.notify n).2 := by
  unfold Session.notify
  obtain ⟨cause, hs, hq⟩ | ⟨gate, gate', hs, hq, hgate⟩ := h.gate.accept hn
  · simp only [hs, hq]
    exact ⟨trivial, h⟩
  · simp only [hs, hq]
    obtain ⟨cause, hs, hq⟩ | ⟨submitted, queue, queue', hs, hq, hqueue⟩ :=
      h.queue.submit (e := .notification n) hn
    · simp only [hs, hq]
      exact ⟨trivial, { h with gate := hgate.revoke n }⟩
    · simp only [hs, hq]
      exact ⟨trivial, { h with gate := hgate, queue := hqueue }⟩

/-- A report about another thread is no matter of this one, whatever becomes of it. -/
theorem alike_notify (s : Session) {n : Notification} (hn : n.concerns id = false) :
    Alike id s (s.notify n).2 := by
  unfold notify
  split
  · exact .refl id s
  · next gate hgate =>
      have hg := Gate.alike_accept hn hgate
      split
      · next hqueue =>
          have hq := EventQueue.alike_submit (e := .notification n) hn hqueue
          exact { Alike.refl id s with gate := hg, queue := hq }
      · exact { Alike.refl id s with gate := hg.trans (gate.alike_revoke hn) }

/-- Queueing a command is submitting it. -/
theorem order_eq (s : Session) (c : Command) :
    s.order c = ((s.submit (.command c)).1.map fun _ => (), (s.submit (.command c)).2) := by
  unfold order
  split <;> simp [*, Except.map]

theorem Alike.order (h : Alike id s q) {c : Command} (hc : c.concerns id = true) :
    (q.order c).1 = (s.order c).1 ∧ Alike id (s.order c).2 (q.order c).2 := by
  obtain ⟨hreply, hafter⟩ := h.submit (e := .command c) hc
  rw [order_eq, order_eq]
  exact ⟨congrArg (Except.map fun _ => ()) hreply, hafter⟩

theorem alike_order (s : Session) {c : Command} (hc : c.concerns id = false) :
    Alike id s (s.order c).2 := by
  rw [order_eq]
  exact s.alike_submit (e := .command c) hc

theorem alike_orderAll (s : Session) {cs : List Command} (hcs : ∀ c ∈ cs, c.concerns id = false) :
    Alike id s (s.orderAll cs).2 := by
  induction cs generalizing s with
  | nil => exact .refl id s
  | cons c rest ih =>
      have hone := s.alike_order (hcs c List.mem_cons_self)
      unfold orderAll
      split
      · next next horder =>
          rw [horder] at hone
          exact hone.trans (ih next fun c hc => hcs c (List.mem_cons_of_mem _ hc))
      · next horder => rwa [horder] at hone

/-- A queue that is open takes every command. -/
theorem order_open (hopen : s.queue.closed = false) (c : Command) :
    (s.order c).1 = .ok () ∧ (s.order c).2.queue.closed = false := by
  obtain ⟨cs, -, hc, -⟩ := s.commanded_order c
  refine ⟨?_, by rw [hc.queue]; exact hopen⟩
  rw [order_eq]
  unfold submit EventQueue.submit
  rw [if_neg (by simp [hopen])]
  by_cases hd : (s.queue.dedupe && decide (Event.command c ∈ s.queue.events)) = true
  · rw [if_pos hd]
    rfl
  · rw [if_neg hd]
    rfl

/-- It takes several one after the other. -/
theorem orderAll_cons_open (hopen : s.queue.closed = false) (c : Command) (rest : List Command) :
    s.orderAll (c :: rest) = (s.order c).2.orderAll rest := by
  have hok := (order_open hopen c).1
  rw [orderAll]
  cases horder : s.order c with
  | mk reply next =>
      rw [horder] at hok
      obtain rfl : reply = .ok () := hok
      rfl

theorem orderAll_open (hopen : s.queue.closed = false) (cs : List Command) :
    (s.orderAll cs).1 = .ok () := by
  induction cs generalizing s with
  | nil => rfl
  | cons c rest ih =>
      rw [orderAll_cons_open hopen]
      exact ih (order_open hopen c).2

/-- One that is closed takes none. -/
theorem order_closed (hclosed : s.queue.closed = true) (c : Command) : s.order c = (.error .closed, s) := by
  rw [order_eq]
  simp [submit, EventQueue.submit, hclosed, Except.map]

/-! ### Decisions -/

/-- **A decision on the thread** is answered alike. -/
theorem Alike.resume (h : Alike id s q) (mode : Mode) :
    (q.resume id mode).1 = (s.resume id mode).1 ∧ Alike id (s.resume id mode).2 (q.resume id mode).2 := by
  unfold Session.resume
  rw [h.isTerminated, h.target.thread]
  split
  · exact ⟨rfl, h⟩
  · split
    · exact ⟨rfl, h⟩
    · split
      · exact h.order (by simp [Command.concerns])
      · exact ⟨rfl, h⟩

theorem alike_resume (s : Session) {other : ThreadId} (hne : other ≠ id) (mode : Mode) :
    Alike id s (s.resume other mode).2 := by
  unfold resume
  split
  · exact .refl id s
  · split
    · exact .refl id s
    · split
      · exact s.alike_order (by simp [Command.concerns, hne])
      · exact .refl id s

/-- Decisions on several threads, one of which is this one: the others make no difference to it. -/
theorem alike_orderAll_resume {ids : List ThreadId} (hnodup : ids.Nodup) (hmem : id ∈ ids) (mode : Mode)
    (hopen : s.queue.closed = false) :
    Alike id (s.order (.resume id mode)).2 (s.orderAll (ids.map fun id => .resume id mode)).2 := by
  induction ids generalizing s with
  | nil => cases hmem
  | cons other rest ih =>
      obtain ⟨hother, hrest⟩ := List.nodup_cons.mp hnodup
      rw [List.map_cons, orderAll_cons_open hopen]
      by_cases he : other = id
      · subst he
        refine alike_orderAll _ fun c hc => ?_
        obtain ⟨thread, hthread, rfl⟩ := List.mem_map.mp hc
        exact decide_eq_false fun he => hother (he ▸ hthread)
      · have hone : Alike id s (s.order (.resume other mode)).2 := s.alike_order (decide_eq_false he)
        have hown := hone.order (c := .resume id mode) (decide_eq_true rfl)
        exact hown.2.trans (ih hrest ((List.mem_cons.mp hmem).resolve_left (Ne.symm he))
          (order_open hopen _).2)

/-- Nobody is found suspended twice. -/
theorem nodup_suspendedThreads (hr : s.target.registry.Exact) : s.suspendedThreads.Nodup := by
  have hall := Registry.nodup_entries hr
  rw [Registry.entries, List.map_map] at hall
  exact hall.sublist (List.filter_sublist.map _)

/-- Who is found suspended may be let go on. -/
theorem suspended_of_found (hr : s.target.registry.Exact) (hfound : id ∈ s.suspendedThreads) :
    ∃ thread, s.target.thread? id = some thread ∧ thread.isSuspended = true := by
  obtain ⟨thread, hmem, rfl⟩ := List.mem_map.mp hfound
  obtain ⟨hthread, hsuspended⟩ := List.mem_filter.mp hmem
  obtain ⟨slot, hslot⟩ := List.mem_iff_getElem?.mp hthread
  rw [Array.getElem?_toList] at hslot
  have hplace := (hr thread.id slot).mpr ⟨thread, hslot, rfl⟩
  exact ⟨thread, (Registry.get?_of_slot hplace).trans hslot, hsuspended⟩

/-- **To let all threads go on** is, to each thread that is found suspended, to let it go on. -/
theorem alike_resumeAll (hr : s.target.registry.Exact) (hlive : s.isTerminated = false)
    (hfound : id ∈ s.suspendedThreads) :
    (s.resumeAll.1.map fun _ => ()) = (s.resume id .clientRequest).1 ∧
      Alike id (s.resume id .clientRequest).2 s.resumeAll.2 := by
  obtain ⟨thread, hthread, hsuspended⟩ := suspended_of_found hr hfound
  have hone : s.resume id .clientRequest = s.order (.resume id .clientRequest) := by
    simp only [resume, hlive, hthread, hsuspended, if_true, Bool.false_eq_true, if_false]
  have hall : s.resumeAll =
      ((s.orderAll (s.suspendedThreads.map fun id => .resume id .clientRequest)).1.map
          fun _ => s.suspendedThreads.length,
        (s.orderAll (s.suspendedThreads.map fun id => .resume id .clientRequest)).2) := by
    unfold resumeAll
    rw [if_neg (by simp [hlive])]
    dsimp only
    split <;> simp [*, Except.map]
  rw [hone, hall]
  cases hclosed : s.queue.closed with
  | false =>
      rw [orderAll_open hclosed, (order_open hclosed _).1]
      exact ⟨rfl, alike_orderAll_resume (nodup_suspendedThreads hr) hfound _ hclosed⟩
  | true =>
      have hrefused : s.orderAll (s.suspendedThreads.map fun id => .resume id .clientRequest) =
          (.error .closed, s) := by
        cases hids : s.suspendedThreads with
        | nil =>
            rw [hids] at hfound
            cases hfound
        | cons other rest => simp only [List.map_cons, orderAll, order_closed hclosed]
      rw [hrefused, order_closed hclosed]
      exact ⟨rfl, .refl id s⟩

/-- To any other it is nothing. -/
theorem alike_resumeAll_other (s : Session) (hfound : s.isTerminated = true ∨ id ∉ s.suspendedThreads) :
    Alike id s s.resumeAll.2 := by
  unfold resumeAll
  split
  · exact .refl id s
  · next hlive =>
      have hnone : ∀ c ∈ s.suspendedThreads.map fun id => Command.resume id .clientRequest,
          c.concerns id = false := by
        intro c hc
        obtain ⟨thread, hthread, rfl⟩ := List.mem_map.mp hc
        exact decide_eq_false fun he => (hfound.resolve_left hlive) (he ▸ hthread)
      have hall := s.alike_orderAll hnone
      dsimp only
      split
      · next horder => rwa [horder] at hall
      · next horder => rwa [horder] at hall

/-! ### The other calls -/

theorem Alike.terminate (h : Alike id s q) :
    q.terminate.1 = s.terminate.1 ∧ Alike id s.terminate.2 q.terminate.2 := by
  unfold Session.terminate
  rw [h.isTerminated, h.terminateRequested]
  split
  · exact ⟨rfl, h⟩
  · obtain ⟨hreply, hafter⟩ := h.order (c := .terminate) rfl
    cases hs : s.order .terminate with
    | mk reply next =>
        cases hq : q.order .terminate with
        | mk reply' next' =>
            rw [hs, hq] at hreply hafter
            obtain rfl : reply' = reply := hreply
            cases reply' with
            | ok => exact ⟨rfl, { hafter with terminateRequested := rfl }⟩
            | error cause => exact ⟨rfl, hafter⟩

theorem Alike.disconnect (h : Alike id s q) :
    q.disconnect.1 = s.disconnect.1 ∧ Alike id s.disconnect.2 q.disconnect.2 := by
  unfold Session.disconnect
  rw [h.isTerminated]
  split
  · exact ⟨rfl, h⟩
  · exact h.order rfl

/-- Commands that bring a change of breakpoints to the scripts on stacks concern no thread. -/
theorem alike_forward (s : Session) (b : Breakpoint) (action : BreakpointAction)
    (breakpoints : BreakpointStore) :
    Alike id { s with breakpoints } (orderAll { s with breakpoints } (s.forwardCommands b action)).2 := by
  refine alike_orderAll _ fun c hc => ?_
  obtain ⟨script, -, rfl⟩ := List.mem_map.mp hc
  rfl

/-- **A change of breakpoints** is the same in both, though the scripts that it reaches are not: they are
those on the stacks of all threads. -/
theorem Alike.addBreakpoint (h : Alike id s q) (b : Breakpoint) :
    Alike id (s.addBreakpoint b).2 (q.addBreakpoint b).2 := by
  unfold Session.addBreakpoint
  rw [h.breakpoints]
  split
  · exact h
  · next breakpoints _ =>
      have hset : Alike id { s with breakpoints } { q with breakpoints } := { h with breakpoints := rfl }
      exact (s.alike_forward b .add breakpoints).symm.trans
        (hset.trans (q.alike_forward b .add breakpoints))

theorem Alike.removeBreakpoint (h : Alike id s q) (b : Breakpoint) :
    Alike id (s.removeBreakpoint b).2 (q.removeBreakpoint b).2 := by
  unfold Session.removeBreakpoint
  rw [h.breakpoints]
  split
  · exact h
  · next breakpoints _ =>
      have hset : Alike id { s with breakpoints } { q with breakpoints } := { h with breakpoints := rfl }
      exact (s.alike_forward b .remove breakpoints).symm.trans
        (hset.trans (q.alike_forward b .remove breakpoints))

/-- A breakpoint for one script is refused by both if their queues are closed. -/
theorem Alike.setBreakpoint (h : Alike id s q) (script : ScriptId) (b : Breakpoint) :
    (q.setBreakpoint script b).1 = (s.setBreakpoint script b).1 ∧
      Alike id (s.setBreakpoint script b).2 (q.setBreakpoint script b).2 := by
  have hs : Alike id s (s.setBreakpoint script b).2 := s.alike_order rfl
  have hq : Alike id q (q.setBreakpoint script b).2 := q.alike_order rfl
  refine ⟨?_, hs.symm.trans (h.trans hq)⟩
  unfold Session.setBreakpoint
  cases hclosed : s.queue.closed with
  | true => rw [order_closed hclosed, order_closed (h.queue.closed.trans hclosed)]
  | false => rw [(order_open hclosed _).1, (order_open (h.queue.closed.trans hclosed) _).1]

theorem Alike.readVariables (h : Alike id s q) (hs : s.target.registry.Indexed)
    (hq : q.target.registry.Indexed) (bindings : ScopeId → Entries) (slot : Nat) :
    (q.readVariables bindings id slot).1 = (s.readVariables bindings id slot).1 ∧
      Alike id (s.readVariables bindings id slot).2 (q.readVariables bindings id slot).2 := by
  unfold Session.readVariables
  rw [h.target.thread]
  split
  · exact ⟨rfl, h⟩
  · next thread hthread =>
      exact ⟨rfl, { h with
        target := h.target.setThread hs hq hthread (thread.id_readVariables bindings slot) }⟩

theorem alike_readVariables (hr : s.target.registry.Indexed) (bindings : ScopeId → Entries)
    {other : ThreadId} (hne : other ≠ id) (slot : Nat) :
    Alike id s (s.readVariables bindings other slot).2 := by
  unfold readVariables
  split
  · exact .refl id s
  · next thread hthread =>
      have hm := Target.moves_of_transition hr hthread (thread.id_readVariables bindings slot)
      exact { Alike.refl id s with target := hm.alike hne }

/-! ### Whatever is called -/

end Session

/-- What either side may call. -/
inductive Call
  /-- The interpreter reports something. -/
  | report (n : Notification)
  /-- The interpreter gives up on a pause. -/
  | abandonPause (id : ThreadId)
  /-- The control side asks for something. -/
  | control (c : ControlCall)

/-- What a call gives back. -/
inductive Answer
  /-- It was taken, or refused. -/
  | reply (reply : Reply)
  /-- There was a pause to give up on, or none. -/
  | paused (flag : Bool)
  /-- What was read of a frame. -/
  | variables (read : List Variable)
  /-- Nothing. -/
  | none

namespace Call

/-- The session after a call. -/
def run (s : Session) : Call → Session
  | .report n => (s.notify n).2
  | .abandonPause id => (s.abandonPause id).2
  | .control c => c.run s

/-- What it gives back. -/
def answer (s : Session) : Call → Answer
  | .report n => .reply (s.notify n).1
  | .abandonPause id => .paused (s.abandonPause id).1
  | .control c => match c with
    | .resume id mode => .reply (s.resume id mode).1
    | .resumeAll => .reply (s.resumeAll.1.map fun _ => ())
    | .terminate => .reply s.terminate.1
    | .disconnect => .reply s.disconnect.1
    | .addBreakpoint b => .reply (s.addBreakpoint b).1
    | .removeBreakpoint b => .reply (s.removeBreakpoint b).1
    | .setBreakpoint script b => .reply (s.setBreakpoint script b).1
    | .readVariables bindings id slot => .variables (s.readVariables bindings id slot).1
    | .cancel => .none

/-- Is a call for this thread, or for the whole session? To let all threads go on is for those that are
found suspended, and is no call of its own here. -/
def concerns : Call → ThreadId → Bool
  | .report n, id => n.concerns id
  | .abandonPause thread, id | .control (.resume thread _), id | .control (.readVariables _ thread _), id =>
      decide (thread = id)
  | .control .resumeAll, _ => false
  | .control .terminate, _ | .control .disconnect, _ | .control (.addBreakpoint _), _
  | .control (.removeBreakpoint _), _ | .control (.setBreakpoint ..), _ | .control .cancel, _ => true

/-- Is what a call gives back the same whatever other threads do? A change of breakpoints is refused by a
closed queue as soon as it concerns a script on the stack of any thread. -/
def isPlain : Call → Bool
  | .control (.addBreakpoint _) | .control (.removeBreakpoint _) => false
  | _ => true

end Call

namespace Session

variable {s q s' q' : Session}

/-- **A call that concerns the thread** is answered alike. -/
theorem Alike.call (h : Alike id s q) (hs : s.target.registry.Indexed) (hq : q.target.registry.Indexed)
    {c : Call} (hc : c.concerns id = true) :
    (c.isPlain = true → c.answer q = c.answer s) ∧ Alike id (c.run s) (c.run q) := by
  have hreply {r r' : Reply} {s' q' : Session} (hboth : r' = r ∧ Alike id s' q') :
      (c.isPlain = true → Answer.reply r' = .reply r) ∧ Alike id s' q' :=
    ⟨fun _ => congrArg Answer.reply hboth.1, hboth.2⟩
  cases c with
  | report n => exact hreply (h.notify hc)
  | abandonPause thread =>
      obtain rfl : thread = id := of_decide_eq_true hc
      refine ⟨fun _ => ?_, { h with gate := h.gate.release thread }⟩
      simp only [Call.answer, Session.abandonPause, Gate.isPaused, h.gate.paused]
  | control c =>
      cases c with
      | resume thread mode =>
          obtain rfl : thread = id := of_decide_eq_true hc
          exact hreply (h.resume mode)
      | resumeAll => cases hc
      | terminate => exact hreply h.terminate
      | disconnect => exact hreply h.disconnect
      | addBreakpoint b => exact ⟨fun hplain => (by cases hplain), h.addBreakpoint b⟩
      | removeBreakpoint b => exact ⟨fun hplain => (by cases hplain), h.removeBreakpoint b⟩
      | setBreakpoint script b => exact hreply (h.setBreakpoint script b)
      | readVariables bindings thread slot =>
          obtain rfl : thread = id := of_decide_eq_true hc
          obtain ⟨hread, hafter⟩ := h.readVariables hs hq bindings slot
          exact ⟨fun _ => congrArg Answer.variables hread, hafter⟩
      | cancel => exact ⟨fun _ => rfl, { h with queue := h.queue.cancel }⟩

/-- **A call for another thread** is no matter of this one. -/
theorem alike_call (hr : s.target.registry.Indexed) {c : Call} (hc : c.concerns id = false)
    (hall : c ≠ .control .resumeAll) : Alike id s (c.run s) := by
  cases c with
  | report n => exact s.alike_notify hc
  | abandonPause thread =>
      exact { Alike.refl id s with gate := s.gate.alike_release (of_decide_eq_false hc) }
  | control c =>
      cases c with
      | resume thread mode => exact s.alike_resume (of_decide_eq_false hc) mode
      | resumeAll => exact absurd rfl hall
      | readVariables bindings thread slot =>
          exact alike_readVariables hr bindings (of_decide_eq_false hc) slot
      | terminate | disconnect | addBreakpoint | removeBreakpoint | setBreakpoint | cancel => cases hc

/-! ### Taking an event -/

theorem nextEvent?_event {e : Event} {rest : List Event} (hlive : s.queue.cancelled = false)
    (hevents : s.queue.events = e :: rest) : s.nextEvent? = some e := by
  simp [nextEvent?, EventQueue.next, hlive, hevents]

theorem nextEvent?_end (hend : s.queue.cancelled = true ∨ s.queue.events = [] ∧ s.queue.closed = true) :
    s.nextEvent? = none := by
  obtain hcancelled | ⟨hevents, hclosed⟩ := hend
  · simp [nextEvent?, EventQueue.next, hcancelled]
  · cases hcancelled : s.queue.cancelled <;> simp [nextEvent?, EventQueue.next, hcancelled, hevents, hclosed]

/-- The dispatcher takes the next event, or begins to close; in either case it had nothing left to do. -/
theorem take?_next (h : s.take? = some s') : s.worker.agenda = [] ∧ s.worker.exit = none ∧
    ((∃ e rest, s.nextEvent? = some e ∧ s.queue.cancelled = false ∧ s.queue.events = e :: rest ∧
        s' = (s.withEvents rest).handle e) ∨
      s.nextEvent? = none ∧ (s.queue.cancelled = true ∨ s.queue.events = [] ∧ s.queue.closed = true) ∧
        s' = s.withAgenda (closing .cancelled)) := by
  obtain ⟨hagenda, hexit, ⟨e, rest, hlive, hevents, rfl⟩ | ⟨hend, rfl⟩⟩ := take?_eq_some.mp h
  · exact ⟨hagenda, hexit, .inl ⟨e, rest, nextEvent?_event hlive hevents, hlive, hevents, rfl⟩⟩
  · exact ⟨hagenda, hexit, .inr ⟨nextEvent?_end hend, hend, rfl⟩⟩

/-- A dispatcher with nothing left to do takes the event in front. -/
theorem take?_of_event {e : Event} {rest : List Event} (hagenda : s.worker.agenda = [])
    (hexit : s.worker.exit = none) (hlive : s.queue.cancelled = false) (hevents : s.queue.events = e :: rest) :
    s.take? = some ((s.withEvents rest).handle e) ∧ s.nextEvent? = some e :=
  ⟨take?_eq_some.mpr ⟨hagenda, hexit, .inl ⟨e, rest, hlive, hevents, rfl⟩⟩, nextEvent?_event hlive hevents⟩

/-- It begins to close if there will be none. -/
theorem take?_of_end (hagenda : s.worker.agenda = []) (hexit : s.worker.exit = none)
    (hend : s.queue.cancelled = true ∨ s.queue.events = [] ∧ s.queue.closed = true) :
    s.take? = some (s.withAgenda (closing .cancelled)) ∧ s.nextEvent? = none :=
  ⟨take?_eq_some.mpr ⟨hagenda, hexit, .inr ⟨hend, rfl⟩⟩, nextEvent?_end hend⟩

/-- A dispatcher that is done takes nothing. -/
theorem take?_of_done (h : s.worker.exit ≠ none) : s.take? = none := by
  cases htake : s.take? with
  | none => rfl
  | some s' => exact absurd (take?_next htake).2.1 h

/-- Nor does one whose queue is empty, and open. -/
theorem take?_of_drained (hevents : s.queue.events = []) (hlive : s.queue.cancelled = false)
    (hopen : s.queue.closed = false) : s.take? = none := by
  cases htake : s.take? with
  | none => rfl
  | some s' =>
      obtain ⟨-, e, rest, hcons, -⟩ := take?_open hopen hlive htake
      cases hevents.symm.trans hcons

/-- **An event that concerns the thread** is handled alike. -/
theorem Alike.handle (h : Alike id s q) (hs : s.target.registry.Exact) (hq : q.target.registry.Exact)
    {e : Event} (he : e.concerns id = true) : Alike id (s.handle e) (q.handle e) := by
  rw [handle_eq, handle_eq]
  cases e with
  | notification n =>
      obtain ⟨heffects, htarget⟩ := Target.alike_handleNotification h.target hs hq s.breakpoints he
      refine { h with target := ?_, agenda := ?_ }
      · simpa only [targetAfter, h.breakpoints] using htarget
      · simpa only [tasksAfter, h.breakpoints] using heffects.notificationTasks n
  | command c =>
      obtain ⟨heffects, htarget⟩ := Target.alike_handleCommand h.target hs hq he
      exact { h with target := htarget, agenda := heffects.commandTasks c }

/-- **Any other event** leaves nothing to do for the thread. -/
theorem alike_handle (hr : s.target.registry.Exact) {e : Event} (he : e.concerns id = false)
    (hidle : s.worker.agenda = []) : Alike id s (s.handle e) := by
  rw [handle_eq]
  cases e with
  | notification n =>
      obtain ⟨heffects, htarget⟩ := Target.alike_report hr.indexed s.breakpoints he
      refine { Alike.refl id s with target := htarget, agenda := ?_ }
      obtain ⟨other, hother, -⟩ := Notification.exists_other he
      have hgo : n ≠ .engineTerminated := by
        rintro rfl
        cases hother
      have htasks := heffects.notificationTasks n
      have hnone : notificationTasks n {} = [] := by
        rw [notificationTasks, if_neg hgo]
        rfl
      rw [hnone] at htasks
      rw [hidle]
      exact htasks
  | command c =>
      obtain ⟨hcallbacks, hfollowUps, htarget⟩ := Target.alike_command hr.indexed he
      refine { Alike.refl id s with target := htarget, agenda := ?_ }
      have hgo : c ≠ .disconnect := by
        rintro rfl
        cases he
      -- What a delivered command leaves to do is about its own thread.
      have hrelease : ownTasks id (releaseTasks c) = [] := by
        cases c with
        | resume thread mode =>
            have hthread : Task.concerns (.release thread) id = false := he
            exact ownTasks_cons_other hthread []
        | setBreakpoint => rfl
        | terminate | disconnect => cases he
      have hlast : ownTasks id [.command c, .forward c] = [] := by
        have hcommand : Task.concerns (.command c) id = false := he
        have hforward : Task.concerns (.forward c) id = false := he
        rw [ownTasks_cons_other hcommand, ownTasks_cons_other hforward, ownTasks_nil]
      show ownTasks id (commandTasks c _) = ownTasks id s.worker.agenda
      rw [hidle, commandTasks]
      simp only [if_neg hgo]
      split <;> simp [ownTasks_callbacks, hcallbacks, hfollowUps, hrelease, hlast]

theorem Alike.withEvents (h : Alike id s q) {rest rest' : List Event}
    (hrest : ownEvents id rest' = ownEvents id rest) : Alike id (s.withEvents rest) (q.withEvents rest') :=
  { h with queue := { h.queue with events := hrest } }

theorem Alike.withAgenda (h : Alike id s q) {tasks tasks' : List Task}
    (htasks : ownTasks id tasks' = ownTasks id tasks) :
    Alike id (s.withAgenda tasks) (q.withAgenda tasks') :=
  { h with agenda := htasks }

/-- **What is taken next for the thread** is the same in both, and handled alike. -/
theorem Alike.take (h : Alike id s q) (hs : s.target.registry.Exact) (hq : q.target.registry.Exact)
    (hstake : s.take? = some s') (hqtake : q.take? = some q')
    (hsown : ∀ e ∈ s.nextEvent?, e.concerns id = true)
    (hqown : ∀ e ∈ q.nextEvent?, e.concerns id = true) :
    q.nextEvent? = s.nextEvent? ∧ Alike id s' q' := by
  obtain ⟨-, -, hscases⟩ := take?_next hstake
  obtain ⟨-, -, hqcases⟩ := take?_next hqtake
  have hevents := h.queue.events
  obtain ⟨e, rest, hsnext, hscancelled, hsevents, rfl⟩ | ⟨hsnext, hsend, rfl⟩ := hscases
  · have he := hsown e hsnext
    rw [hsevents, ownEvents_cons_own he] at hevents
    obtain ⟨e', rest', hqnext, -, hqevents, rfl⟩ | ⟨-, hqend, -⟩ := hqcases
    · rw [hqevents, ownEvents_cons_own (hqown e' hqnext)] at hevents
      obtain ⟨rfl, hrest⟩ := List.cons.inj hevents
      exact ⟨hqnext.trans hsnext.symm, (h.withEvents hrest).handle hs hq he⟩
    · rw [h.queue.cancelled, hscancelled] at hqend
      simp [hqend.resolve_left Bool.false_ne_true] at hevents
  · obtain ⟨e', rest', hqnext, hqcancelled, hqevents, rfl⟩ | ⟨hqnext, -, rfl⟩ := hqcases
    · rw [← h.queue.cancelled, hqcancelled] at hsend
      rw [hqevents, ownEvents_cons_own (hqown e' hqnext)] at hevents
      simp [hsend.resolve_left Bool.false_ne_true] at hevents
    · exact ⟨hqnext.trans hsnext.symm, h.withAgenda rfl⟩

/-- **What is taken for others** is no matter of the thread. -/
theorem alike_take (hr : s.target.registry.Exact) (htake : s.take? = some s') {e : Event}
    (hnext : s.nextEvent? = some e) (he : e.concerns id = false) : Alike id s s' := by
  obtain ⟨hidle, -, ⟨e', rest, hnext', -, hevents, rfl⟩ | ⟨hnone, -, -⟩⟩ := take?_next htake
  · obtain rfl : e' = e := by
      rw [hnext] at hnext'
      exact (Option.some.inj hnext').symm
    have hrest : ownEvents id rest = ownEvents id s.queue.events := by
      rw [hevents, ownEvents_cons_other he]
    have hwithout : Alike id s (s.withEvents rest) := (Alike.refl id s).withEvents hrest
    exact hwithout.trans (alike_handle (s := s.withEvents rest) hr he hidle)
  · rw [hnext] at hnone
    cases hnone

/-! ### Doing a task -/

/-- **A task that concerns the thread** is done alike. -/
theorem Alike.effect (h : Alike id s q) {task : Task} (htask : task.concerns id = true) :
    Alike id (s.effect task) (q.effect task) := by
  cases task with
  | release thread => exact { h with gate := h.gate.release thread }
  | releaseAll => exact { h with gate := h.gate.releaseAll }
  | followUp c => exact (h.submit (e := .command c) htask).2
  | closeQueue => exact { h with queue := h.queue.close }
  | closeGate => exact { h with gate := h.gate.close }
  | announceClosed => exact { h with }
  | finish exit => exact { h with exit := rfl }
  | callback | lastCallback | command | forward | forwardClosed => exact h

/-- **Any other task** is no matter of the thread. -/
theorem alike_effect (s : Session) {task : Task} (htask : task.concerns id = false) :
    Alike id s (s.effect task) := by
  cases task with
  | release thread =>
      exact { Alike.refl id s with gate := s.gate.alike_release (of_decide_eq_false htask) }
  | followUp c => exact s.alike_submit (e := .command c) htask
  | callback | lastCallback | command | forward => exact .refl id s
  | releaseAll | closeQueue | closeGate | announceClosed | finish | forwardClosed => cases htask

/-- **What is done next for the thread** is the same in both. -/
theorem Alike.perform (h : Alike id s q) {task task' : Task} (hs : s.perform? = some (task, s'))
    (hq : q.perform? = some (task', q')) (htask : task.concerns id = true)
    (htask' : task'.concerns id = true) : task' = task ∧ Alike id s' q' := by
  obtain ⟨rest, hsagenda, rfl⟩ := perform?_cases hs
  obtain ⟨rest', hqagenda, rfl⟩ := perform?_cases hq
  have hagenda := h.agenda
  rw [hsagenda, hqagenda, ownTasks_cons_own htask, ownTasks_cons_own htask'] at hagenda
  obtain ⟨rfl, hrest⟩ := List.cons.inj hagenda
  exact ⟨rfl, (h.withAgenda hrest).effect htask⟩

theorem alike_perform {task : Task} (hs : s.perform? = some (task, s')) (htask : task.concerns id = false) :
    Alike id s s' := by
  obtain ⟨rest, hagenda, rfl⟩ := perform?_cases hs
  have hrest : ownTasks id rest = ownTasks id s.worker.agenda := by
    rw [hagenda, ownTasks_cons_other htask]
  exact ((Alike.refl id s).withAgenda hrest).trans (alike_effect _ htask)

end Session

end Pausepoint
