import Pausepoint.Proofs.Session.Indifference
import Pausepoint.Proofs.Session.Matching
import Pausepoint.Proofs.Session.Pipeline

/-!
# Pausepoint.Proofs.Session.Orders

What a call submits.

Whether a queue takes an event, refuses it or has it already, the caller goes on in the same way. So a call
is fully said by what it submits: `ControlCall.orders` are the commands of a call of the control side, and
`ControlCall.run_eq` says that offering them to the queue, one after the other, is what the call does.
They depend only on what the target shows (`ControlCall.orders_of_matches`).

`Session.Unpaused` is the case in which an event is about a thread that no pause waits for in the queue.
While nobody gives up on a pause and nobody asks for the end, every event is submitted in this case
(`Session.Onward`).
-/

namespace Pausepoint

namespace EventQueue

/-- The queue after it was given an event, whatever it made of it. -/
def offer (q : EventQueue) (e : Event) : EventQueue :=
  match q.submit e with
  | .ok (_, next) => next
  | .error _ => q

/-- The queue after it was given some events, one after the other. -/
def offers (q : EventQueue) (es : List Event) : EventQueue :=
  es.foldl offer q

variable {q : EventQueue}

@[simp] theorem offers_nil (q : EventQueue) : q.offers [] = q := rfl

@[simp] theorem offers_cons (q : EventQueue) (e : Event) (rest : List Event) :
    q.offers (e :: rest) = (q.offer e).offers rest := rfl

/-- Only a closed queue refuses an event. -/
theorem closed_of_submit {e : Event} {cause : Refusal} (h : q.submit e = .error cause) :
    q.closed = true := by
  unfold submit at h
  split at h
  · assumption
  · split at h <;> cases h

theorem offer_of_closed (h : q.closed = true) (e : Event) : q.offer e = q := by
  simp [offer, submit, h]

theorem offers_of_closed (h : q.closed = true) (es : List Event) : q.offers es = q := by
  induction es with
  | nil => rfl
  | cons e rest ih => rw [offers_cons, offer_of_closed h, ih]

/-- An open queue takes an event, unless it keeps events only once and has this one. -/
theorem offer_of_open (h : q.closed = false) (e : Event) : q.offer e =
    if q.dedupe = true ∧ e ∈ q.events then q else { q with events := q.events ++ [e] } := by
  unfold offer submit
  rw [h]
  by_cases hd : q.dedupe = true ∧ e ∈ q.events
  · simp [hd]
  · have hd' : ¬ (q.dedupe && decide (e ∈ q.events)) = true := by simpa using hd
    simp only [Bool.false_eq_true, if_false, if_neg hd, if_neg hd']

theorem cancelled_offers (q : EventQueue) (es : List Event) : (q.offers es).cancelled = q.cancelled := by
  induction es generalizing q with
  | nil => rfl
  | cons e rest ih =>
      rw [offers_cons, ih]
      unfold offer submit
      split
      · next hsubmit =>
          split at hsubmit
          · cases hsubmit
          · split at hsubmit <;> cases hsubmit <;> rfl
      · rfl

end EventQueue

namespace Session

theorem submit_offer (s : Session) (e : Event) : (s.submit e).2 = { s with queue := s.queue.offer e } := by
  unfold submit EventQueue.offer
  cases s.queue.submit e <;> rfl

theorem order_offer (s : Session) (c : Command) :
    (s.order c).2 = { s with queue := s.queue.offer (.command c) } := by
  rw [order_eq, submit_offer]

/-- Commands are offered in order; behind one that is refused the others would be refused as well. -/
theorem orderAll_offers (s : Session) (cs : List Command) :
    (s.orderAll cs).2 = { s with queue := s.queue.offers (cs.map .command) } := by
  induction cs generalizing s with
  | nil => rfl
  | cons c rest ih =>
      have hone := s.order_offer c
      unfold orderAll
      cases horder : s.order c with
      | mk reply next =>
          rw [horder] at hone
          obtain rfl : next = _ := hone
          cases reply with
          | ok =>
              dsimp only
              rw [ih]
              rfl
          | error cause =>
              have hclosed : s.queue.closed = true := by
                rw [order_eq, submit] at horder
                cases hsubmit : s.queue.submit (.command c) with
                | ok => rw [hsubmit] at horder; cases horder
                | error => exact EventQueue.closed_of_submit hsubmit
              dsimp only
              rw [EventQueue.offer_of_closed hclosed, EventQueue.offers_of_closed hclosed]

/-- A report that is not admitted changes nothing. -/
theorem notify_of_error {s : Session} {n : Notification} {cause : Refusal}
    (h : s.gate.accept n = .error cause) : (s.notify n).2 = s := by
  rw [notify, h]

/-- One that is admitted is offered. Nothing is left of its pause if the queue is closed. -/
theorem notify_of_ok {s : Session} {n : Notification} {gate : Gate} (h : s.gate.accept n = .ok gate) :
    (s.notify n).2 = { s with
      gate := if s.queue.closed then gate.revoke n else gate
      queue := s.queue.offer (.notification n) } := by
  unfold notify EventQueue.offer EventQueue.submit
  rw [h]
  cases hc : s.queue.closed with
  | true => rfl
  | false =>
      by_cases hd : (s.queue.dedupe && decide (Event.notification n ∈ s.queue.events)) = true
      · simp [hd]
      · simp [hd]

end Session

/-! ### The commands of a call -/

namespace ControlCall

/-- The commands that a call submits. -/
def orders (s : Session) : ControlCall → List Command
  | .resume id mode =>
      if s.isTerminated then []
      else if s.target.stateOf id = some .suspended then [.resume id mode]
      else []
  | .resumeAll =>
      if s.isTerminated then [] else s.suspendedThreads.map fun id => .resume id .clientRequest
  | .terminate => if s.isTerminated || s.terminateRequested then [] else [.terminate]
  | .disconnect => if s.isTerminated then [] else [.disconnect]
  | .addBreakpoint b => if (s.breakpoints.add b).1 then s.forwardCommands b .add else []
  | .removeBreakpoint b => if (s.breakpoints.remove b).1 then s.forwardCommands b .remove else []
  | .setBreakpoint script b => [.setBreakpoint script b .add]
  | .readVariables .. | .cancel => []

/-- The breakpoints that are set after a call. -/
def stored (store : BreakpointStore) : ControlCall → BreakpointStore
  | .addBreakpoint b => (store.add b).2
  | .removeBreakpoint b => (store.remove b).2
  | _ => store

/-- Is all that a call does to submit commands, and to set breakpoints? -/
def Submits : ControlCall → Prop
  | .terminate | .readVariables .. | .cancel => False
  | _ => True

/-- **A call is what it submits.** -/
theorem run_eq (s : Session) {c : ControlCall} (hc : c.Submits) : c.run s = { s with
    breakpoints := c.stored s.breakpoints
    queue := s.queue.offers ((c.orders s).map .command) } := by
  cases c with
  | terminate | readVariables | cancel => exact hc.elim
  | resume id mode =>
      unfold run orders Session.resume
      dsimp only
      split
      · rfl
      · cases hthread : s.target.thread? id with
        | none => simp [Target.stateOf, hthread, stored]
        | some thread =>
            by_cases hs : thread.state = .suspended
            · simp [Target.stateOf, hthread, hs, DebugThread.isSuspended, s.order_offer, stored]
            · simp [Target.stateOf, hthread, hs, DebugThread.isSuspended, stored]
  | resumeAll =>
      have hall := s.orderAll_offers (s.suspendedThreads.map fun id => .resume id .clientRequest)
      unfold run orders Session.resumeAll
      dsimp only
      split
      · rfl
      · split <;> simp_all [stored]
  | disconnect =>
      unfold run orders Session.disconnect
      dsimp only
      split
      · rfl
      · exact s.order_offer .disconnect
  | addBreakpoint b =>
      unfold run orders Session.addBreakpoint stored
      dsimp only
      by_cases hb : b ∈ s.breakpoints.forResource b.resource
      · simp [BreakpointStore.add, hb]
      · simp only [BreakpointStore.add, if_neg hb, if_true]
        exact Session.orderAll_offers _ _
  | removeBreakpoint b =>
      unfold run orders Session.removeBreakpoint stored
      dsimp only
      by_cases hb : b ∈ s.breakpoints.forResource b.resource
      · simp only [BreakpointStore.remove, if_pos hb, if_true]
        exact Session.orderAll_offers _ _
      · simp [BreakpointStore.remove, hb]
  | setBreakpoint script b => exact s.order_offer _

/-- What a call submits depends on what the target shows, and on what is set. -/
theorem orders_of_matches {s q : Session} (h : s.target.Matches q.target)
    (hbreakpoints : q.breakpoints = s.breakpoints) {c : ControlCall} (hc : c.Submits) :
    c.orders q = c.orders s := by
  have hover : q.isTerminated = s.isTerminated := h.isTerminated
  have hforward (b : Breakpoint) (action : BreakpointAction) :
      q.forwardCommands b action = s.forwardCommands b action := by
    rw [Session.forwardCommands, Session.forwardCommands, h.scriptsOnStacks]
  cases c with
  | terminate | readVariables | cancel => exact hc.elim
  | resume id mode => simp only [orders, hover, h.stateOf]
  | resumeAll =>
      have hfound : q.suspendedThreads = s.suspendedThreads :=
        h.registry.filter_eq fun hm => by rw [DebugThread.isSuspended, DebugThread.isSuspended, hm.state]
      simp only [orders, hover, hfound]
  | disconnect => simp only [orders, hover]
  | addBreakpoint b => simp only [orders, hbreakpoints, hforward]
  | removeBreakpoint b => simp only [orders, hbreakpoints, hforward]
  | setBreakpoint script b => rfl

/-- A decision is submitted for a thread that is suspended, and the end of the scripts only by the call
that asks for it. -/
theorem of_mem_orders {s : Session} (hr : s.target.registry.Exact) {c : ControlCall} (hc : c.Submits)
    {d : Command} (h : d ∈ c.orders s) : d ≠ .terminate ∧
      ∀ id mode, d = .resume id mode → s.target.stateOf id = some .suspended := by
  have hset {script : ScriptId} {b : Breakpoint} {action : BreakpointAction}
      (hd : d = .setBreakpoint script b action) : d ≠ .terminate ∧
        ∀ id mode, d = .resume id mode → s.target.stateOf id = some .suspended := by
    subst hd
    exact ⟨by simp, by simp⟩
  cases c with
  | terminate | readVariables | cancel => exact hc.elim
  | resume id mode =>
      unfold orders at h
      dsimp only at h
      split at h
      · cases h
      · split at h
        · next hs =>
            obtain rfl := List.mem_singleton.mp h
            refine ⟨by simp, fun other mode' he => ?_⟩
            cases he
            exact hs
        · cases h
  | resumeAll =>
      unfold orders at h
      dsimp only at h
      split at h
      · cases h
      · obtain ⟨id, hid, rfl⟩ := List.mem_map.mp h
        refine ⟨by simp, fun other mode he => ?_⟩
        cases he
        -- It resumes those that it found suspended, in the same look at the target.
        obtain ⟨thread, hthread, hsuspended⟩ := Session.suspended_of_found hr hid
        simpa [Target.stateOf, hthread, DebugThread.isSuspended] using hsuspended
  | disconnect =>
      unfold orders at h
      dsimp only at h
      split at h
      · cases h
      · obtain rfl := List.mem_singleton.mp h
        exact ⟨by simp, by simp⟩
  | addBreakpoint b =>
      unfold orders at h
      dsimp only at h
      split at h
      · obtain ⟨script, -, rfl⟩ := List.mem_map.mp h
        exact hset rfl
      · cases h
  | removeBreakpoint b =>
      unfold orders at h
      dsimp only at h
      split at h
      · obtain ⟨script, -, rfl⟩ := List.mem_map.mp h
        exact hset rfl
      · cases h
  | setBreakpoint script b => exact hset (List.mem_singleton.mp h)

end ControlCall

/-- Reading variables changes nothing of what is shown. -/
theorem Session.matches_readVariables {s : Session} (hr : s.target.registry.Indexed)
    (hself : s.target.Matches s.target) (bindings : ScopeId → Entries) (id : ThreadId) (slot : Nat) :
    s.target.Matches (s.readVariables bindings id slot).2.target := by
  unfold readVariables
  split
  · exact hself
  · next thread hthread =>
      obtain ⟨frames, hcarries, -⟩ := (hself.thread_self hthread).stack
      have hsame : (thread.readVariables bindings slot).2.id = thread.id ∧
          (thread.readVariables bindings slot).2.state = thread.state := by
        unfold DebugThread.readVariables
        split <;> exact ⟨rfl, rfl⟩
      exact Target.matches_setThread hr hself hthread
        ⟨hsame.1, hsame.2, frames, hcarries, hcarries.of_sheets (thread.sheets_readVariables bindings slot)⟩

/-! ### Sessions that go on -/

namespace Event

/-- The thread that an event reports on, or lets go on. -/
def subject? : Event → Option ThreadId
  | .notification n => n.thread?
  | .command (.resume id _) => some id
  | .command _ => none

/-- Does a thread wait for a decision after the event? -/
def isPause : Event → Bool
  | .notification n => n.isPause
  | .command _ => false

/-- It is about that thread. -/
theorem exists_subject_of_pause {e : Event} (h : e.isPause = true) : ∃ id, e.subject? = some id := by
  cases e with
  | notification n =>
      cases n with
      | scriptReady | suspended => exact ⟨_, rfl⟩
      | engineStarted | engineTerminated | stackFrames | resumed => cases h
  | command c => cases h

end Event

namespace Session

variable {s s' : Session}

/-- No pause waits that is about the thread of an event. -/
def Unpaused (s : Session) (e : Event) : Prop :=
  ∀ x ∈ s.queue.events, x.isPause = true → ∀ id, x.subject? = some id → e.subject? ≠ some id

/-- What is about no thread is in nobody's way. -/
theorem unpaused_of_none {e : Event} (h : e.subject? = none) : s.Unpaused e := by
  intro x _ _ id _ he
  rw [h] at he
  cases he

/-- A pause that waits stands in the lane of its thread. -/
theorem mem_lane_of_pause {x : Event} (hx : x ∈ s.queue.events) (hp : x.isPause = true) {id : ThreadId}
    (hid : x.subject? = some id) : ∃ n ∈ lane id s.queue.events, n.isPause = true := by
  cases x with
  | notification n => exact ⟨n, mem_lane.mpr ⟨hx, hid⟩, hp⟩
  | command c => cases hp

/-- A report is admitted only while no pause of its thread waits. -/
theorem Agrees.unpaused_of_accept (h : s.Agrees) {n : Notification} {gate : Gate}
    (ha : s.gate.accept n = .ok gate) : s.Unpaused (.notification n) := by
  intro x hx hp id hid he
  obtain ⟨m, hm, hpause⟩ := mem_lane_of_pause hx hp hid
  have hon := h.agreesOn id
  exact hon.not_suspended_of_accept he ha (settled_of_pause hon.own hon.fits hm hpause)

/-- Nothing waits about a thread that is suspended. -/
theorem Agrees.unpaused_of_suspended (h : s.Agrees) {id : ThreadId}
    (hs : s.target.stateOf id = some .suspended) (mode : Mode) : s.Unpaused (.command (.resume id mode)) := by
  intro x hx hp other hid he
  obtain rfl := Option.some.inj he
  obtain ⟨m, hm, -⟩ := mem_lane_of_pause hx hp hid
  have hon := h.agreesOn id
  have hfits := hon.fits
  rw [hs] at hfits
  rw [eq_nil_of_fits_suspended hon.own hfits] at hm
  cases hm

/-- A command is submitted in nobody's way, if the thread it lets go on is suspended. -/
theorem Agrees.unpaused_of_order (h : s.Agrees) {c : Command}
    (hc : ∀ id mode, c = .resume id mode → s.target.stateOf id = some .suspended) :
    s.Unpaused (.command c) := by
  cases c with
  | resume id mode => exact h.unpaused_of_suspended (hc id mode rfl) mode
  | terminate | disconnect | setBreakpoint => exact unpaused_of_none rfl

/-- **The invariant** of a session in which nobody gives up on a pause and nobody asks for the end: a
decision that follows a load is for a thread that is still suspended. -/
structure Onward (s : Session) : Prop where
  concord : s.Concord
  waiting : .command .terminate ∉ s.queue.events
  following : .followUp .terminate ∉ s.worker.agenda
  awaited : s.IsLive → ∀ id mode, .followUp (.resume id mode) ∈ s.worker.agenda →
    s.target.stateOf id = some .suspended

theorem onward_create (settings : DebuggerSettings) : (create settings).Onward where
  concord := concord_create settings
  waiting := List.not_mem_nil
  following := List.not_mem_nil
  awaited _ _ _ h := absurd h List.not_mem_nil

/-- Only a report that is dispatched brings commands that follow it. -/
theorem exists_report_of_followUp {e : Event} {c : Command} (h : .followUp c ∈ s.tasksAfter e) :
    ∃ n, e = .notification n ∧ c ∈ (s.target.handleNotification s.breakpoints n).1.followUps := by
  have hmem : c ∈ (s.tasksAfter e).filterMap Task.followUp? := List.mem_filterMap.mpr ⟨_, h, rfl⟩
  cases e with
  | notification n =>
      rw [tasksAfter, followUps_notificationTasks] at hmem
      exact ⟨n, rfl, hmem⟩
  | command d =>
      rw [tasksAfter, followUps_commandTasks, Target.followUps_handleCommand] at hmem
      cases hmem

/-- A decision that follows a report is for the thread that the report has suspended. -/
theorem Agrees.suspended_of_followUp (h : s.Agrees) (hl : s.IsLive) {n : Notification} {rest : List Event}
    (hevents : s.queue.events = .notification n :: rest) {id : ThreadId} {mode : Mode}
    (hc : .resume id mode ∈ (s.target.handleNotification s.breakpoints n).1.followUps) :
    (s.targetAfter (.notification n)).stateOf id = some .suspended := by
  by_cases hload : ∃ thread script root, n = .scriptReady thread script root
  · obtain ⟨thread, script, root, rfl⟩ := hload
    obtain ⟨hrun, hfinds⟩ := h.head_finds hl hevents rfl
    obtain ⟨next, hm, hstate, -, hfollow⟩ :=
      Target.moves_of_scriptReady h.indexed hrun s.breakpoints script root hfinds
    rw [hfollow] at hc
    obtain hc | hc := List.mem_append.mp hc
    · split at hc
      · unfold Target.installCommands at hc
        split at hc
        · obtain ⟨b, -, he⟩ := List.mem_map.mp hc
          cases he
        · cases hc
      · cases hc
    · cases List.mem_singleton.mp hc
      rw [targetAfter, hm.stateOf_self, hstate]
  · have hnone := Target.followUps_of_ne s.target s.breakpoints fun thread script root he =>
      hload ⟨thread, script, root, he⟩
    rw [hnone] at hc
    cases hc

namespace Onward

theorem notify (h : s.Onward) (n : Notification) : (s.notify n).2.Onward := by
  obtain ⟨ht, hw, -, hq⟩ := s.notify_frame n
  refine ⟨concord_notify h.concord n, ?_, hw ▸ h.following, fun hl => ?_⟩
  · rcases hq with hq | hq
    · rw [hq]
      exact h.waiting
    · rw [hq]
      simpa using h.waiting
  · rw [hw, ht]
    exact h.awaited (isLive_notify.mp hl)

theorem commanded (h : s.Onward) {cs : List Command} (hc : s.Commanded s' cs) (hcs : .terminate ∉ cs) :
    s'.Onward := by
  refine ⟨concord_commanded h.concord hc, ?_, hc.worker ▸ h.following, fun hl id mode hmem => ?_⟩
  · rw [hc.events, List.mem_append, List.mem_map]
    rintro (hmem | ⟨c, hmem, he⟩)
    · exact h.waiting hmem
    · obtain rfl := Event.command.inj he
      exact hcs hmem
  · have hlive := hc.isLive.mp hl
    rw [hc.target.stateOf (h.concord hlive).indexed]
    rw [hc.worker] at hmem
    exact h.awaited hlive id mode hmem

theorem call (h : s.Onward) {c : ControlCall} (hc : c ≠ .terminate) : (c.run s).Onward := by
  by_cases hcancel : c = .cancel
  · subst hcancel
    have hdead : ¬ s.cancel.IsLive := fun hl => by
      have hcancelled : s.cancel.queue.cancelled = true := by
        unfold cancel EventQueue.cancel
        split
        · assumption
        · rfl
      rw [hl.queue] at hcancelled
      cases hcancelled
    have hevents : s.cancel.queue.events = s.queue.events := by
      unfold cancel EventQueue.cancel
      split <;> rfl
    refine ⟨concord_call h.concord .cancel, ?_, h.following, fun hl => absurd hl hdead⟩
    show Event.command .terminate ∉ s.cancel.queue.events
    rw [hevents]
    exact h.waiting
  · have hcs : ∃ cs, s.Commanded (c.run s) cs ∧ .terminate ∉ cs := by
      by_cases hdisconnect : c = .disconnect
      · subst hdisconnect
        obtain ⟨cs, hsub, hcs⟩ := s.commanded_disconnect
        exact ⟨cs, hcs, fun hmem => by cases List.mem_singleton.mp (hsub hmem)⟩
      · have hmild : c.IsMild := by
          cases c with
          | terminate => exact absurd rfl hc
          | disconnect => exact absurd rfl hdisconnect
          | cancel => exact absurd rfl hcancel
          | resume | resumeAll | addBreakpoint | removeBreakpoint | setBreakpoint | readVariables => trivial
        obtain ⟨cs, hall, hcs⟩ := ControlCall.mild_commanded s hmild
        exact ⟨cs, hcs, fun hmem => hall _ hmem⟩
    obtain ⟨cs, hcs, hnone⟩ := hcs
    exact h.commanded hcs hnone

theorem take (h : s.Onward) (hs : s.take? = some s') : s'.Onward := by
  have hhead : s.queue.events.head? ≠ some (.command .terminate) := fun he =>
    h.waiting (List.mem_of_mem_head? he)
  have hconcord := concord_take h.concord hs hhead
  obtain ⟨hidle, ⟨e, rest, hevents, rfl⟩ | ⟨-, rfl⟩⟩ := take?_cases hs
  · have hfollow {c : Command} (hc : .followUp c ∈ ((s.withEvents rest).handle e).worker.agenda) :
        ∃ n, e = .notification n ∧ c ∈ (s.target.handleNotification s.breakpoints n).1.followUps := by
      rw [agenda_handle, tasksAfter_withEvents] at hc
      exact exists_report_of_followUp hc
    refine ⟨hconcord, ?_, fun hterm => ?_, fun hl id mode hmem => ?_⟩
    · rw [queue_handle, events_withEvents]
      exact fun hmem => h.waiting (hevents ▸ List.mem_cons_of_mem _ hmem)
    · obtain ⟨n, -, hc⟩ := hfollow hterm
      exact Target.mild_followUps s.target s.breakpoints n _ hc
    · obtain ⟨n, rfl, hc⟩ := hfollow hmem
      have hlive := isLive_of_take hs hl
      rw [target_handle, targetAfter_withEvents]
      exact (h.concord hlive).suspended_of_followUp hlive hevents hc
  · refine ⟨hconcord, h.waiting, fun hterm => ?_, fun _ id mode hmem => ?_⟩
    · simp [closing] at hterm
    · simp [closing] at hmem

theorem perform (h : s.Onward) {task : Task} (hs : s.perform? = some (task, s')) : s'.Onward := by
  obtain ⟨rest, hagenda, rfl⟩ := perform?_cases hs
  have hmem {other : Task} (hother : other ∈ rest) : other ∈ s.worker.agenda :=
    hagenda ▸ List.mem_cons_of_mem _ hother
  refine ⟨concord_perform h.concord hs, ?_, ?_, fun hl id mode hresume => ?_⟩
  · cases task with
    | closeQueue => exact List.not_mem_nil
    | followUp c =>
        obtain ⟨cs, hsub, hc, -⟩ := (s.withAgenda rest).commanded_submit c
        show Event.command .terminate ∉ ((s.withAgenda rest).submit (.command c)).2.queue.events
        rw [hc.events, List.mem_append, List.mem_map]
        rintro (hterm | ⟨d, hd, he⟩)
        · exact h.waiting hterm
        · obtain rfl := Event.command.inj he
          obtain rfl := List.mem_singleton.mp (hsub hd)
          exact h.following (hagenda ▸ List.mem_cons_self)
    | release | releaseAll | callback | command | forward | lastCallback | closeGate | forwardClosed
    | announceClosed | finish => exact h.waiting
  · rw [agenda_effect, agenda_withAgenda]
    exact fun hterm => h.following (hmem hterm)
  · rw [target_effect]
    rw [agenda_effect, agenda_withAgenda] at hresume
    have hlive := isLive_effect.mp hl
    exact h.awaited ⟨hlive.target, hlive.queue⟩ id mode (hmem hresume)

end Onward

end Session

end Pausepoint
