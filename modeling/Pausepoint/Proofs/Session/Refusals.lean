import Pausepoint.Proofs.Session.Orders
import Pausepoint.Proofs.Session.Proceedings
import Pausepoint.Proofs.Session.Prospect

/-!
# Pausepoint.Proofs.Session.Refusals

What is left of a call that was refused.

A call of the control side is refused for one of two reasons: it makes no sense in the state of the session,
which it finds out before it does anything (`ControlCall.objection?`), or it has commands to submit and the
queue is closed. In the second case something may have been done already. Nothing of it is left if the call
takes it back, or does nothing before its first command; a change of breakpoints is noted first and stays.

* `ControlCall.refused_iff` — when a call is refused, and why;
* `ControlCall.run_of_refused` — what is left of it;
* `ControlCall.refused_call_is_undone` — the session is as before, and refuses the same call again, unless
  breakpoints were to change;
* `ControlCall.refused_change_is_kept` — that change is made nevertheless, and the same call is then answered
  as if there were nothing to do.
-/

namespace Pausepoint

/-! ### Commands -/

namespace Session

variable {s : Session}

/-- A command is refused by a closed queue only. -/
theorem reply_order (s : Session) (c : Command) :
    (s.order c).1 = if s.queue.closed = true then .error .closed else .ok () := by
  unfold order submit EventQueue.submit
  by_cases hclosed : s.queue.closed = true
  · simp [hclosed]
  · by_cases hdedupe : (s.queue.dedupe && decide (Event.command c ∈ s.queue.events)) = true
    · simp [hclosed, hdedupe]
    · simp [hclosed, hdedupe]

/-- Taking a command does not close a queue. -/
theorem closed_order (s : Session) (c : Command) : (s.order c).2.queue.closed = s.queue.closed := by
  obtain ⟨cs, -, hcommanded, -⟩ := s.commanded_order c
  rw [hcommanded.queue]

/-- Of several commands the first is refused by a closed queue, if there is one. -/
theorem reply_orderAll (s : Session) (cs : List Command) :
    (s.orderAll cs).1 = if s.queue.closed = true ∧ cs ≠ [] then .error .closed else .ok () := by
  induction cs generalizing s with
  | nil => simp [orderAll]
  | cons c rest ih =>
      have hreply := s.reply_order c
      have hclosed := s.closed_order c
      unfold orderAll
      cases horder : s.order c with
      | mk reply next =>
          rw [horder] at hreply hclosed
          dsimp only at hreply hclosed
          subst hreply
          by_cases h : s.queue.closed = true
          · simp [h]
          · simp [h, ih, hclosed]

end Session

/-! ### Calls -/

namespace ControlCall

variable {s : Session} {c : ControlCall} {cause : Refusal}

/-- Why a call makes no sense in a session, if it makes none. -/
def objection? (s : Session) : ControlCall → Option Refusal
  | .resume id _ =>
      if s.isTerminated then some .terminated
      else match s.target.thread? id with
        | none => some (.unknownThread id)
        | some thread => if thread.isSuspended then none else some (thread.invalid "resume")
  | .resumeAll => if s.isTerminated then some .terminated else none
  | .terminate | .disconnect | .addBreakpoint _ | .removeBreakpoint _ | .setBreakpoint .. | .readVariables ..
  | .cancel => none

/-- A call that makes no sense submits nothing. -/
theorem orders_of_objection (h : c.objection? s = some cause) : c.orders s = [] := by
  cases c with
  | terminate | disconnect | addBreakpoint | removeBreakpoint | setBreakpoint | readVariables | cancel =>
      cases h
  | resume id mode =>
      unfold objection? at h
      unfold orders
      dsimp only at h ⊢
      split at h
      · next hover => rw [if_pos hover]
      · next hover =>
          rw [if_neg hover, if_neg fun hs => ?_]
          obtain ⟨thread, hthread, hstate⟩ := Option.map_eq_some_iff.mp hs
          simp [hthread, DebugThread.isSuspended, hstate] at h
  | resumeAll =>
      unfold objection? at h
      unfold orders
      dsimp only at h ⊢
      split at h
      · next hover => rw [if_pos hover]
      · cases h

/-- Commands are refused because there are some and the queue is closed. -/
theorem reply_orderAll_iff {cs : List Command} :
    (s.orderAll cs).1 = .error cause ↔ cause = .closed ∧ s.queue.closed = true ∧ cs ≠ [] := by
  rw [s.reply_orderAll]
  split
  · next h => simp [h, eq_comm]
  · next h => simp [h]

theorem reply_order_iff {d : Command} :
    (s.order d).1 = .error cause ↔ cause = .closed ∧ s.queue.closed = true := by
  rw [s.reply_order]
  split
  · next h => simp [h, eq_comm]
  · next h => simp [h]

/-- **When a call is refused**: because it makes no sense, or because it has commands for a closed queue. -/
theorem refused_iff (s : Session) (c : ControlCall) (cause : Refusal) :
    (Call.control c).answer s = .reply (.error cause) ↔
      c.objection? s = some cause ∨ cause = .closed ∧ s.queue.closed = true ∧ c.orders s ≠ [] := by
  -- A call objects before it has changed anything, or its commands meet a closed queue.
  cases c with
  | resume id mode =>
      cases hthread : s.target.thread? id with
      | none =>
          have hstate : s.target.stateOf id = none := by rw [Target.stateOf, hthread, Option.map_none]
          simp only [Call.answer, Session.resume, objection?, orders, Answer.reply.injEq, hthread, hstate]
          split <;> simp
      | some thread =>
          have hstate : s.target.stateOf id = some thread.state := by
            rw [Target.stateOf, hthread, Option.map_some]
          simp only [Call.answer, Session.resume, objection?, orders, Answer.reply.injEq, hthread, hstate]
          split
          · simp
          · by_cases hs : thread.state = .suspended
            · simp [hs, DebugThread.isSuspended, reply_order_iff]
            · simp [hs, DebugThread.isSuspended]
  | resumeAll =>
      simp only [Call.answer, Session.resumeAll, objection?, orders, Answer.reply.injEq]
      split
      · simp [Except.map]
      · rw [← reply_orderAll_iff]
        cases s.orderAll _ with
        | mk reply next => cases reply <;> simp [Except.map]
  | terminate =>
      simp only [Call.answer, Session.terminate, objection?, orders, Answer.reply.injEq]
      split
      · simp
      · have hiff : (s.order .terminate).1 = .error cause ↔ cause = .closed ∧ s.queue.closed = true :=
          reply_order_iff
        cases horder : s.order .terminate with
        | mk reply next =>
            rw [horder] at hiff
            cases reply <;> simpa using hiff
  | disconnect =>
      simp only [Call.answer, Session.disconnect, objection?, orders, Answer.reply.injEq]
      split
      · simp
      · simp [reply_order_iff]
  | addBreakpoint b =>
      simp only [Call.answer, Session.addBreakpoint, objection?, orders, Answer.reply.injEq]
      cases s.breakpoints.add b with
      | mk new store => cases new <;> simp [reply_orderAll_iff]
  | removeBreakpoint b =>
      simp only [Call.answer, Session.removeBreakpoint, objection?, orders, Answer.reply.injEq]
      cases s.breakpoints.remove b with
      | mk there store => cases there <;> simp [reply_orderAll_iff]
  | setBreakpoint script b =>
      simp [Call.answer, Session.setBreakpoint, objection?, orders, reply_order_iff]
  | readVariables | cancel => simp [Call.answer, objection?, orders]

/-! ### What is left of a refused call -/

/-- **What is left of a refused call** is at most the change of breakpoints that it was to make. -/
theorem run_of_refused (h : (Call.control c).answer s = .reply (.error cause)) :
    c.run s = { s with breakpoints := c.stored s.breakpoints } := by
  -- Either there is nothing to submit, or the queue stays as it is.
  have hoffers : s.queue.offers ((c.orders s).map .command) = s.queue := by
    rcases (refused_iff s c cause).mp h with hobjection | ⟨-, hclosed, -⟩
    · rw [orders_of_objection hobjection]
      rfl
    · exact EventQueue.offers_of_closed hclosed _
  cases c with
  | terminate =>
      rcases (refused_iff s .terminate cause).mp h with hobjection | ⟨-, hclosed, -⟩
      · cases hobjection
      · have hreply := s.reply_order .terminate
        have hsame := s.order_offer .terminate
        rw [if_pos hclosed] at hreply
        rw [EventQueue.offer_of_closed hclosed] at hsame
        unfold run Session.terminate
        dsimp only
        split
        · rfl
        · split <;> simp_all [stored]
  | readVariables | cancel => cases h
  | resume | resumeAll | disconnect | addBreakpoint | removeBreakpoint | setBreakpoint =>
      rw [run_eq s (by trivial), hoffers]

/-- A call that is not about what breakpoints are set leaves them as they are. -/
theorem stored_of_plain (hplain : (Call.control c).isPlain = true) (store : BreakpointStore) :
    c.stored store = store := by
  cases c with
  | addBreakpoint | removeBreakpoint => cases hplain
  | resume | resumeAll | terminate | disconnect | setBreakpoint | readVariables | cancel => rfl

/-- **A refused call changes nothing**: queue, target and the wish to end are as before. Unless it was to
change which breakpoints are set, these are as before as well, and the same call is refused again for the
same cause. -/
theorem refused_call_is_undone (h : (Call.control c).answer s = .reply (.error cause)) :
    (c.run s).queue = s.queue ∧ (c.run s).target = s.target ∧
      (c.run s).terminateRequested = s.terminateRequested ∧
      ((Call.control c).isPlain = true →
        (c.run s).breakpoints = s.breakpoints ∧
          (Call.control c).answer (c.run s) = .reply (.error cause)) := by
  have hrun := run_of_refused h
  refine ⟨by rw [hrun], by rw [hrun], by rw [hrun], fun hplain => ?_⟩
  rw [stored_of_plain hplain] at hrun
  have hsame : c.run s = s := hrun
  rw [hsame]
  exact ⟨rfl, h⟩

/-- A session that was cancelled while thread 1 ran a script. -/
def deserted : Session :=
  Session.greeted.cancel

/-- The end of the scripts can be asked for again. -/
theorem refused_call_is_undone_cancelled :
    (Call.control .terminate).answer deserted = .reply (.error .closed) ∧
      (Call.control .terminate).isPlain = true ∧
      (run deserted .terminate).queue = deserted.queue ∧ (run deserted .terminate).target = deserted.target ∧
      (run deserted .terminate).terminateRequested = deserted.terminateRequested ∧
      (run deserted .terminate).breakpoints = deserted.breakpoints ∧
      (Call.control .terminate).answer (run deserted .terminate) = .reply (.error .closed) := by
  have hrefused : (Call.control .terminate).answer deserted = .reply (.error .closed) := rfl
  obtain ⟨hqueue, htarget, hrequested, hplain⟩ := refused_call_is_undone hrefused
  exact ⟨hrefused, rfl, hqueue, htarget, hrequested, hplain rfl⟩

/-- A breakpoint that is set need not be set. -/
theorem answer_addBreakpoint_of_mem {b : Breakpoint} (h : b ∈ s.breakpoints.forResource b.resource) :
    (Call.control (.addBreakpoint b)).answer s = .reply (.ok ()) := by
  simp [Call.answer, Session.addBreakpoint, BreakpointStore.add, h]

/-- One that is not set need not be taken away. -/
theorem answer_removeBreakpoint_of_not_mem {b : Breakpoint}
    (h : b ∉ s.breakpoints.forResource b.resource) :
    (Call.control (.removeBreakpoint b)).answer s = .reply (.ok ()) := by
  simp [Call.answer, Session.removeBreakpoint, BreakpointStore.remove, h]

/-- **A refused change of breakpoints is made nevertheless**, and the same call is then answered as if there
were nothing to do, although no script has heard of the change. -/
theorem refused_change_is_kept (hchange : (Call.control c).isPlain = false)
    (h : (Call.control c).answer s = .reply (.error cause)) :
    (c.run s).breakpoints ≠ s.breakpoints ∧ (c.run s).queue = s.queue ∧
      (Call.control c).answer (c.run s) = .reply (.ok ()) := by
  have hrun := run_of_refused h
  cases c with
  | resume | resumeAll | terminate | disconnect | setBreakpoint | readVariables | cancel => cases hchange
  | addBreakpoint b =>
      have hnew : b ∉ s.breakpoints.forResource b.resource := by
        intro hmem
        rw [answer_addBreakpoint_of_mem hmem] at h
        cases h
      have hset : b ∈ (s.breakpoints.add b).2.forResource b.resource :=
        BreakpointStore.mem_add.mpr (.inr rfl)
      have hother : (s.breakpoints.add b).2 ≠ s.breakpoints := by
        intro hsame
        rw [hsame] at hset
        exact hnew hset
      rw [hrun]
      exact ⟨hother, rfl, answer_addBreakpoint_of_mem hset⟩
  | removeBreakpoint b =>
      have hthere : b ∈ s.breakpoints.forResource b.resource := by
        refine Decidable.byContradiction fun hmem => ?_
        rw [answer_removeBreakpoint_of_not_mem hmem] at h
        cases h
      have hgone : b ∉ (s.breakpoints.remove b).2.forResource b.resource :=
        fun hmem => (BreakpointStore.mem_remove.mp hmem).2 rfl
      have hother : (s.breakpoints.remove b).2 ≠ s.breakpoints := by
        intro hsame
        rw [hsame] at hgone
        exact hgone hthere
      rw [hrun]
      exact ⟨hother, rfl, answer_removeBreakpoint_of_not_mem hgone⟩

/-- **A breakpoint that was refused is set**: with a script on the stack of a thread and a closed queue it is
refused, set, and not refused again. -/
theorem refused_breakpoint_is_set :
    (∃ trace, Execution Session.Proceeds (.create {}) trace deserted) ∧
      (Call.control (.addBreakpoint ⟨"a", 1, true⟩)).answer deserted = .reply (.error .closed) ∧
      deserted.breakpoints.forResource "a" = [] ∧
      (run deserted (.addBreakpoint ⟨"a", 1, true⟩)).breakpoints.forResource "a" = [⟨"a", 1, true⟩] ∧
      (Call.control (.addBreakpoint ⟨"a", 1, true⟩)).answer
        (run deserted (.addBreakpoint ⟨"a", 1, true⟩)) = .reply (.ok ()) := by
  obtain ⟨trace, hgreeted, -⟩ := Session.execution_greeted
  exact ⟨⟨_, hgreeted.next (.call _ .cancel)⟩, rfl, rfl, rfl, rfl⟩

end ControlCall

end Pausepoint
