import Pausepoint.Proofs.Session.Reports
import Pausepoint.Session.Queue

/-!
# Pausepoint.Proofs.Session.Likeness

What one thread can tell of a session.

A gate, a queue and a target are shared by all threads. Two of them are *alike* to a thread if they agree
on all that it may ever notice: its own standing, what waits for it, and the engine that all threads have
in common. Each operation has two laws here:

* what concerns the thread is answered in the same way by both, and leaves them alike;
* what concerns another thread leaves it alike to what it was before.

Commands that install a breakpoint concern no thread: they are for the engine, and which of them are
queued depends on the stacks of all threads and on what waits already.

* `Notification.concerns`, `Callback.concerns`, `Command.concerns` — what is about a thread, or about all;
* `Gate.Alike`, `EventQueue.Alike`, `Target.Alike`, `Effects.Alike` — the relation, part by part;
* `Target.alike_handleNotification`, `Target.alike_handleCommand` — targets that are alike do alike.
-/

namespace Pausepoint

/-! ### What concerns a thread -/

/-- Is a report about this thread, or about the engine? -/
def Notification.concerns (n : Notification) (id : ThreadId) : Bool :=
  n.thread?.all fun thread => decide (thread = id)

/-- Is a callback about this thread, or about the session? -/
def Callback.concerns (c : Callback) (id : ThreadId) : Bool :=
  c.thread?.all fun thread => decide (thread = id)

/-- Does a command let this thread go on, or end the scripts of all? -/
def Command.concerns : Command → ThreadId → Bool
  | .resume thread _, id => decide (thread = id)
  | .terminate, _ | .disconnect, _ => true
  | .setBreakpoint .., _ => false

/-- The same of what is queued. -/
def Event.concerns : Event → ThreadId → Bool
  | .notification n, id => n.concerns id
  | .command c, id => c.concerns id

variable {id : ThreadId}

/-- A report that concerns a thread is about it, or about none. -/
theorem Notification.concerns_cases {n : Notification} (h : n.concerns id = true) :
    n.thread? = none ∨ n.thread? = some id := by
  unfold concerns at h
  cases hother : n.thread? with
  | none => exact .inl rfl
  | some other =>
      rw [hother] at h
      exact .inr (congrArg some (of_decide_eq_true h))

/-- Any other is about another thread. -/
theorem Notification.exists_other {n : Notification} (h : n.concerns id = false) :
    ∃ other, n.thread? = some other ∧ other ≠ id := by
  unfold concerns at h
  cases hother : n.thread? with
  | none =>
      rw [hother] at h
      cases h
  | some other =>
      rw [hother] at h
      exact ⟨other, rfl, of_decide_eq_false h⟩

theorem Callback.concerns_of_thread {c : Callback} {other : ThreadId} (h : c.thread? = some other)
    (hne : other ≠ id) : c.concerns id = false := by
  simp [concerns, h, hne]

/-! ### Gates -/

namespace Gate

/-- Two gates that are alike to a thread. -/
structure Alike (id : ThreadId) (g k : Gate) : Prop where
  phase : k.phase = g.phase
  closed : k.closed = g.closed
  known : id ∈ k.known ↔ id ∈ g.known
  paused : id ∈ k.paused ↔ id ∈ g.paused

namespace Alike

variable {g k l : Gate}

theorem refl (id : ThreadId) (g : Gate) : Alike id g g :=
  ⟨rfl, rfl, Iff.rfl, Iff.rfl⟩

theorem symm (h : Alike id g k) : Alike id k g :=
  ⟨h.phase.symm, h.closed.symm, h.known.symm, h.paused.symm⟩

theorem trans (h : Alike id g k) (h' : Alike id k l) : Alike id g l :=
  ⟨h'.phase.trans h.phase, h'.closed.trans h.closed, h'.known.trans h.known, h'.paused.trans h.paused⟩

theorem release (h : Alike id g k) (thread : ThreadId) : Alike id (g.release thread) (k.release thread) :=
  ⟨h.phase, h.closed, h.known, by simp [h.paused]⟩

theorem releaseAll (h : Alike id g k) : Alike id g.releaseAll k.releaseAll :=
  ⟨h.phase, h.closed, h.known, Iff.rfl⟩

theorem close (h : Alike id g k) : Alike id g.close k.close :=
  ⟨h.phase, rfl, h.known, Iff.rfl⟩

theorem revoke (h : Alike id g k) (n : Notification) : Alike id (g.revoke n) (k.revoke n) := by
  unfold Gate.revoke
  split
  · exact h.release _
  · exact h

theorem acceptFrom (h : Alike id g k) (announces pauses : Bool) :
    (∃ cause, g.acceptFrom id announces pauses = .error cause ∧
        k.acceptFrom id announces pauses = .error cause) ∨
      ∃ g' k', g.acceptFrom id announces pauses = .ok g' ∧ k.acceptFrom id announces pauses = .ok k' ∧
        Alike id g' k' := by
  unfold Gate.acceptFrom
  simp only [h.known, h.paused]
  split
  · exact .inl ⟨_, rfl, rfl⟩
  · split
    · exact .inl ⟨_, rfl, rfl⟩
    · refine .inr ⟨_, _, rfl, rfl, h.phase, h.closed, ?_, ?_⟩
      · cases announces <;> simp [h.known]
      · cases pauses <;> simp [h.paused]

/-- **A report that concerns the thread** is admitted by both gates, or refused for the same cause. -/
theorem accept (h : Alike id g k) {n : Notification} (hn : n.concerns id = true) :
    (∃ cause, g.accept n = .error cause ∧ k.accept n = .error cause) ∨
      ∃ g' k', g.accept n = .ok g' ∧ k.accept n = .ok k' ∧ Alike id g' k' := by
  unfold Gate.accept
  rw [h.closed, h.phase]
  split
  · exact .inl ⟨_, rfl, rfl⟩
  · cases n with
    | engineStarted =>
        by_cases hended : g.phase = .ended
        · simp only [if_pos hended]
          exact .inl ⟨_, rfl, rfl⟩
        · simp only [if_neg hended]
          exact .inr ⟨_, _, rfl, rfl, rfl, rfl, h.known, h.paused⟩
    | engineTerminated => exact .inr ⟨_, _, rfl, rfl, rfl, rfl, h.known, Iff.rfl⟩
    | scriptReady | stackFrames | suspended | resumed =>
        obtain hnone | hsome := Notification.concerns_cases hn
        · cases hnone
        · obtain rfl := Option.some.inj hsome
          cases g.phase with
          | idle | ended => exact .inl ⟨_, rfl, rfl⟩
          | started => exact h.acceptFrom _ _

end Alike

variable {g g' : Gate}

/-- The pause of another thread is over. -/
theorem alike_release (g : Gate) {other : ThreadId} (hne : other ≠ id) : Alike id g (g.release other) :=
  ⟨rfl, rfl, Iff.rfl, by simp [Ne.symm hne]⟩

/-- **A report about another thread** is no matter of this one. -/
theorem alike_accept {n : Notification} (hn : n.concerns id = false) (ha : g.accept n = .ok g') :
    Alike id g g' := by
  obtain ⟨other, hother, hne⟩ := Notification.exists_other hn
  obtain ⟨-, -, -, rfl⟩ := accept_thread hother ha
  exact ⟨rfl, rfl, by simp [Ne.symm hne], by simp [Ne.symm hne]⟩

theorem alike_revoke (g : Gate) {n : Notification} (hn : n.concerns id = false) :
    Alike id g (g.revoke n) := by
  obtain ⟨other, hother, hne⟩ := Notification.exists_other hn
  unfold revoke
  rw [hother]
  cases n.isPause with
  | false => exact .refl id g
  | true => exact g.alike_release hne

end Gate

/-! ### Queues -/

/-- The events that concern a thread. -/
def ownEvents (id : ThreadId) (events : List Event) : List Event :=
  events.filter fun e => e.concerns id

@[simp] theorem ownEvents_nil : ownEvents id [] = [] := rfl

@[simp] theorem ownEvents_append (events later : List Event) :
    ownEvents id (events ++ later) = ownEvents id events ++ ownEvents id later :=
  List.filter_append events later

theorem ownEvents_cons_own {e : Event} (h : e.concerns id = true) (rest : List Event) :
    ownEvents id (e :: rest) = e :: ownEvents id rest :=
  List.filter_cons_of_pos h

theorem ownEvents_cons_other {e : Event} (h : e.concerns id = false) (rest : List Event) :
    ownEvents id (e :: rest) = ownEvents id rest :=
  List.filter_cons_of_neg (by simp [h])

theorem mem_ownEvents {e : Event} {events : List Event} :
    e ∈ ownEvents id events ↔ e ∈ events ∧ e.concerns id = true :=
  List.mem_filter

namespace EventQueue

/-- Two queues that are alike to a thread. -/
structure Alike (id : ThreadId) (q r : EventQueue) : Prop where
  events : ownEvents id r.events = ownEvents id q.events
  dedupe : r.dedupe = q.dedupe
  cancelled : r.cancelled = q.cancelled
  closed : r.closed = q.closed

namespace Alike

variable {q r p : EventQueue}

theorem refl (id : ThreadId) (q : EventQueue) : Alike id q q :=
  ⟨rfl, rfl, rfl, rfl⟩

theorem symm (h : Alike id q r) : Alike id r q :=
  ⟨h.events.symm, h.dedupe.symm, h.cancelled.symm, h.closed.symm⟩

theorem trans (h : Alike id q r) (h' : Alike id r p) : Alike id q p :=
  ⟨h'.events.trans h.events, h'.dedupe.trans h.dedupe, h'.cancelled.trans h.cancelled,
    h'.closed.trans h.closed⟩

/-- Events that concern the thread wait in both or in none. -/
theorem mem (h : Alike id q r) {e : Event} (he : e.concerns id = true) :
    e ∈ r.events ↔ e ∈ q.events := by
  have hmem := congrArg (e ∈ ·) h.events
  simpa [mem_ownEvents, he] using hmem

/-- **An event that concerns the thread** is taken by both queues, or refused for the same cause. -/
theorem submit (h : Alike id q r) {e : Event} (he : e.concerns id = true) :
    (∃ cause, q.submit e = .error cause ∧ r.submit e = .error cause) ∨
      ∃ submitted q' r', q.submit e = .ok (submitted, q') ∧ r.submit e = .ok (submitted, r') ∧
        Alike id q' r' := by
  unfold EventQueue.submit
  simp only [h.closed, h.dedupe, h.mem he]
  split
  · exact .inl ⟨_, rfl, rfl⟩
  · split
    · exact .inr ⟨_, _, _, rfl, rfl, h⟩
    · refine .inr ⟨_, _, _, rfl, rfl, ?_, rfl, h.cancelled, rfl⟩
      simp [h.events]

theorem cancel (h : Alike id q r) : Alike id q.cancel r.cancel := by
  unfold EventQueue.cancel
  rw [h.cancelled]
  split
  · exact h
  · exact ⟨h.events, h.dedupe, rfl, rfl⟩

theorem close (h : Alike id q r) : Alike id q.close r.close :=
  ⟨rfl, h.dedupe, h.cancelled, rfl⟩

end Alike

/-- **An event that does not concern the thread** is no matter of it. -/
theorem alike_submit {q q' : EventQueue} {e : Event} {submitted : Submitted} (he : e.concerns id = false)
    (h : q.submit e = .ok (submitted, q')) : Alike id q q' := by
  unfold submit at h
  split at h
  · cases h
  · split at h
    · obtain ⟨-, rfl⟩ := Prod.mk.inj (Except.ok.inj h)
      exact .refl id q
    · obtain ⟨-, rfl⟩ := Prod.mk.inj (Except.ok.inj h)
      exact ⟨by simp [ownEvents_cons_other he], rfl, rfl, rfl⟩

end EventQueue

/-! ### Effects -/

namespace Effects

/-- Two effects of which a thread notices the same. -/
structure Alike (id : ThreadId) (e f : Effects) : Prop where
  callbacks : (f.callbacks.filter fun c => c.concerns id) = e.callbacks.filter fun c => c.concerns id
  followUps : (f.followUps.filter fun c => c.concerns id) = e.followUps.filter fun c => c.concerns id
  deliver : f.deliver = e.deliver

theorem Alike.refl (id : ThreadId) (e : Effects) : Alike id e e :=
  ⟨rfl, rfl, rfl⟩

/-- Effects that are about one thread: the listener is told of nothing else, and the commands that follow
let only this thread go on. -/
structure IsAbout (id : ThreadId) (e : Effects) : Prop where
  callbacks : ∀ c ∈ e.callbacks, c.thread? = some id
  followUps : ∀ c ∈ e.followUps, (∃ mode, c = .resume id mode) ∨
    ∃ script b action, c = .setBreakpoint script b action
  deliver : e.deliver = false

theorem isAbout_nothing (id : ThreadId) : IsAbout id {} :=
  ⟨by simp, by simp, rfl⟩

/-- No other thread notices them. -/
theorem IsAbout.alike {other : ThreadId} {e : Effects} (h : IsAbout other e) (hne : other ≠ id) :
    Alike id {} e where
  callbacks := List.filter_eq_nil_iff.mpr fun c hc => by
    simp [Callback.concerns_of_thread (h.callbacks c hc) hne]
  followUps := List.filter_eq_nil_iff.mpr fun c hc => by
    obtain ⟨mode, rfl⟩ | ⟨script, b, action, rfl⟩ := h.followUps c hc
    · simp [Command.concerns, hne]
    · simp [Command.concerns]
  deliver := h.deliver

end Effects

/-! ### Targets -/

namespace Target

variable {t u v : Target}

/-- Two targets that are alike to a thread. -/
structure Alike (id : ThreadId) (t u : Target) : Prop where
  state : u.state = t.state
  options : u.options = t.options
  thread : u.thread? id = t.thread? id

theorem Alike.refl (id : ThreadId) (t : Target) : Alike id t t :=
  ⟨rfl, rfl, rfl⟩

theorem Alike.symm (h : Alike id t u) : Alike id u t :=
  ⟨h.state.symm, h.options.symm, h.thread.symm⟩

theorem Alike.trans (h : Alike id t u) (h' : Alike id u v) : Alike id t v :=
  ⟨h'.state.trans h.state, h'.options.trans h.options, h'.thread.trans h.thread⟩

theorem Alike.isTerminated (h : Alike id t u) : u.isTerminated = t.isTerminated := by
  rw [Target.isTerminated, Target.isTerminated, h.state]

theorem Alike.shown (h : Alike id t u) (frames : List Frame) : u.shown frames = t.shown frames := by
  rw [Target.shown, Target.shown, h.options]

theorem Alike.transition (h : Alike id t u) (f : DebugThread → Except Refusal DebugThread) :
    u.transition? id f = t.transition? id f := by
  rw [transition?, transition?, h.thread]

/-- The same version of the thread is stored in both. -/
theorem Alike.setThread (h : Alike id t u) (ht : t.registry.Indexed) (hu : u.registry.Indexed)
    {before next : DebugThread} (hbefore : t.thread? id = some before) (hid : next.id = before.id) :
    Alike id (t.setThread next) (u.setThread next) := by
  have hm := moves_of_transition ht hbefore hid
  have hk := moves_of_transition hu (h.thread.trans hbefore) hid
  exact ⟨h.state, h.options, hk.self.trans hm.self.symm⟩

/-- What another thread does is no matter of this one. -/
theorem Moves.alike {other : ThreadId} {next : DebugThread} (h : t.Moves u other next)
    (hne : other ≠ id) : Alike id t u :=
  ⟨h.state, h.options, h.others id (Ne.symm hne)⟩

/-- First contact with the thread. -/
theorem Alike.contact (h : Alike id t u) (ht : t.registry.Indexed) (hu : u.registry.Indexed) :
    (u.registry.contact id).1 = (t.registry.contact id).1 ∧
      Alike id { t with registry := (t.registry.contact id).2 }
        { u with registry := (u.registry.contact id).2 } := by
  refine ⟨?_, h.state, h.options, ?_⟩
  · rw [contact_new ht, contact_new hu, h.thread]
  · rw [thread?_contact ht, thread?_contact hu, h.thread]

/-! ### Reports about the thread -/

theorem Alike.scriptReady (h : Alike id t u) (ht : t.registry.Indexed) (hu : u.registry.Indexed)
    (store : BreakpointStore) (script : Snapshot) (root : Bool) :
    (u.scriptReady store id script root).1 = (t.scriptReady store id script root).1 ∧
      Alike id (t.scriptReady store id script root).2 (u.scriptReady store id script root).2 := by
  obtain ⟨hnew, hc⟩ := h.contact ht hu
  have ht' := Registry.indexed_contact ht id
  have hu' := Registry.indexed_contact hu id
  have hmode : modeFor { u with registry := (u.registry.contact id).2 } root =
      modeFor { t with registry := (t.registry.contact id).2 } root := by
    rw [modeFor, modeFor, hc.options]
  -- The thread is the same in both, and so is all that is decided from it and from the options.
  have hsame := hc.transition (DebugThread.suspend · .scriptLoaded)
  cases htrans : transition? { t with registry := (t.registry.contact id).2 } id
      (DebugThread.suspend · .scriptLoaded) with
  | none =>
      simp only [Target.scriptReady, hsame, htrans, hnew]
      exact ⟨trivial, hc⟩
  | some thread =>
      obtain ⟨before, hbefore, hsuspend⟩ := exists_of_transition htrans
      have hid := (DebugThread.suspend_cases hsuspend).1
      by_cases hshown : (t.options.showDynamicCode || !script.isDynamic) = true
      · have hshown' : (u.options.showDynamicCode || !script.isDynamic) = true := by rwa [h.options]
        cases hpush : thread.pushFrame (Frame.capture script 0 (loadedKind script root) none) with
        | ok pushed =>
            simp only [Target.scriptReady, hsame, htrans, hnew, hmode, if_pos hshown, if_pos hshown', hpush]
            have hpushed := (DebugThread.pushFrame_cases hpush).1
            exact ⟨trivial, hc.setThread ht' hu' hbefore (hpushed.trans hid)⟩
        | error cause =>
            simp only [Target.scriptReady, hsame, htrans, hnew, hmode, if_pos hshown, if_pos hshown', hpush]
            exact ⟨trivial, hc.setThread ht' hu' hbefore hid⟩
      · have hshown' : ¬ (u.options.showDynamicCode || !script.isDynamic) = true := by rwa [h.options]
        simp only [Target.scriptReady, hsame, htrans, hnew, hmode, if_neg hshown, if_neg hshown']
        exact ⟨trivial, hc.setThread ht' hu' hbefore hid⟩

theorem Alike.stackFrames (h : Alike id t u) (ht : t.registry.Indexed) (hu : u.registry.Indexed)
    (frames : List Frame) : (u.stackFrames id frames).1 = (t.stackFrames id frames).1 ∧
      Alike id (t.stackFrames id frames).2 (u.stackFrames id frames).2 := by
  unfold Target.stackFrames
  rw [h.shown, h.transition]
  split
  · next thread htrans =>
      obtain ⟨before, hbefore, hframes⟩ := exists_of_transition htrans
      exact ⟨rfl, h.setThread ht hu hbefore (DebugThread.replaceFrames_cases hframes).1⟩
  · exact ⟨rfl, h⟩

theorem Alike.suspended (h : Alike id t u) (ht : t.registry.Indexed) (hu : u.registry.Indexed)
    (frames : List Frame) (reason : Reason) :
    (u.suspended id frames reason).1 = (t.suspended id frames reason).1 ∧
      Alike id (t.suspended id frames reason).2 (u.suspended id frames reason).2 := by
  unfold Target.suspended
  rw [h.shown, h.transition]
  split
  · next thread htrans =>
      obtain ⟨before, hbefore, hsuspend⟩ := exists_of_transition htrans
      have hid := (DebugThread.suspend_cases hsuspend).1
      dsimp only
      split
      · next shown hframes =>
          exact ⟨rfl, h.setThread ht hu hbefore ((DebugThread.replaceFrames_cases hframes).1.trans hid)⟩
      · exact ⟨rfl, h.setThread ht hu hbefore hid⟩
  · exact ⟨rfl, h⟩

theorem Alike.resumed (h : Alike id t u) (ht : t.registry.Indexed) (hu : u.registry.Indexed)
    (mode : Mode) : (u.resumed id mode).1 = (t.resumed id mode).1 ∧
      Alike id (t.resumed id mode).2 (u.resumed id mode).2 := by
  unfold Target.resumed
  rw [h.thread]
  split
  · exact ⟨rfl, h⟩
  · next before hbefore =>
      split
      · exact ⟨rfl, h⟩
      · next thread hresumed =>
          exact ⟨rfl, h.setThread ht hu hbefore (DebugThread.noteResumed_cases hresumed).1⟩

/-- **A report about the thread** does the same to both. -/
theorem Alike.report (h : Alike id t u) (ht : t.registry.Indexed) (hu : u.registry.Indexed)
    (store : BreakpointStore) {n : Notification} (hid : n.thread? = some id) :
    (u.handleNotification store n).1 = (t.handleNotification store n).1 ∧
      Alike id (t.handleNotification store n).2 (u.handleNotification store n).2 := by
  cases hs : t.state with
  | terminated =>
      simp only [handleNotification, hs, h.state]
      exact ⟨trivial, h⟩
  | notStarted =>
      rw [handleNotification_of_notStarted hs store hid,
        handleNotification_of_notStarted (h.state.trans hs) store hid]
      exact ⟨rfl, h⟩
  | running =>
      have hs' := h.state.trans hs
      cases n with
      | engineStarted | engineTerminated => cases hid
      | scriptReady thread script root =>
          obtain rfl := Option.some.inj hid
          simpa only [handleNotification, hs, hs'] using h.scriptReady ht hu store script root
      | stackFrames thread frames =>
          obtain rfl := Option.some.inj hid
          simpa only [handleNotification, hs, hs'] using h.stackFrames ht hu frames
      | suspended thread frames reason =>
          obtain rfl := Option.some.inj hid
          simpa only [handleNotification, hs, hs'] using h.suspended ht hu frames reason
      | resumed thread mode =>
          obtain rfl := Option.some.inj hid
          simpa only [handleNotification, hs, hs'] using h.resumed ht hu mode

/-! ### The end of all threads -/

/-- Who is ended: every thread that had not ended. -/
theorem mem_terminateAll {r : Registry} (hr : r.Exact) :
    id ∈ r.terminateAll.1 ↔ ∃ thread, r.get? id = some thread ∧ thread.state ≠ .terminated := by
  simp only [Registry.terminateAll, List.mem_map, List.mem_filter, decide_eq_true_eq]
  constructor
  · rintro ⟨thread, ⟨hmem, hstate⟩, rfl⟩
    obtain ⟨slot, hslot⟩ := List.mem_iff_getElem?.mp hmem
    rw [Array.getElem?_toList] at hslot
    have hplace := (hr thread.id slot).mpr ⟨thread, hslot, rfl⟩
    exact ⟨thread, (Registry.get?_of_slot hplace).trans hslot, hstate⟩
  · rintro ⟨thread, hget, hstate⟩
    have hid := Registry.id_of_get? hr.indexed hget
    cases hplace : r.index.get? id with
    | none =>
        rw [Registry.get?_of_no_slot hplace] at hget
        cases hget
    | some slot =>
        rw [Registry.get?_of_slot hplace] at hget
        exact ⟨thread, ⟨Array.mem_toList_iff.mpr (Array.mem_of_getElem? hget), hstate⟩, hid⟩

/-- Nobody is ended twice. -/
theorem nodup_terminateAll {r : Registry} (hr : r.Exact) : r.terminateAll.1.Nodup := by
  have hall := Registry.nodup_entries hr
  rw [Registry.entries, List.map_map] at hall
  exact hall.sublist ((List.filter_sublist).map _)

/-- The listener is told that a thread has ended if it had not. -/
theorem filter_terminated {r : Registry} (hr : r.Exact) :
    ((r.terminateAll.1.map fun thread => Callback.threadStateChanged thread .terminated).filter
        fun c => c.concerns id) =
      if id ∈ r.terminateAll.1 then [.threadStateChanged id .terminated] else [] := by
  have hown : (fun c => Callback.concerns c id) ∘
      (fun thread => Callback.threadStateChanged thread .terminated) = (· == id) := rfl
  rw [List.filter_map, hown, List.filter_beq, (nodup_terminateAll hr).count]
  split <;> rfl

/-- **The end of the session** is the end of the thread in both. -/
theorem Alike.terminate (h : Alike id t u) (ht : t.registry.Exact) (hu : u.registry.Exact)
    (fault : Option Fault) :
    ((u.terminate fault).1.filter fun c => c.concerns id) =
        ((t.terminate fault).1.filter fun c => c.concerns id) ∧
      Alike id (t.terminate fault).2 (u.terminate fault).2 := by
  unfold Target.terminate
  rw [h.isTerminated]
  split
  · exact ⟨rfl, h⟩
  · have hget : u.registry.get? id = t.registry.get? id := h.thread
    have hended : id ∈ u.registry.terminateAll.1 ↔ id ∈ t.registry.terminateAll.1 := by
      rw [mem_terminateAll ht, mem_terminateAll hu, hget]
    refine ⟨?_, rfl, h.options, ?_⟩
    · simp only [List.filter_append, filter_terminated ht, filter_terminated hu, hended]
    · simp only [thread?, Registry.get?_terminateAll, hget]

/-! ### Whatever is handled -/

/-- **A report that concerns the thread** is handled alike. -/
theorem alike_handleNotification (h : Alike id t u) (ht : t.registry.Exact) (hu : u.registry.Exact)
    (store : BreakpointStore) {n : Notification} (hn : n.concerns id = true) :
    Effects.Alike id (t.handleNotification store n).1 (u.handleNotification store n).1 ∧
      Alike id (t.handleNotification store n).2 (u.handleNotification store n).2 := by
  obtain hnone | hid := Notification.concerns_cases hn
  · cases n with
    | engineStarted =>
        cases hs : t.state <;> simp only [handleNotification, hs, h.state]
        · exact ⟨.refl id _, rfl, h.options, h.thread⟩
        · exact ⟨.refl id _, h⟩
        · exact ⟨.refl id _, h⟩
    | engineTerminated =>
        obtain ⟨hcallbacks, hended⟩ := h.terminate ht hu none
        cases hs : t.state <;> simp only [handleNotification, hs, h.state]
        · exact ⟨⟨hcallbacks, rfl, rfl⟩, hended⟩
        · exact ⟨⟨hcallbacks, rfl, rfl⟩, hended⟩
        · exact ⟨.refl id _, h⟩
    | scriptReady | stackFrames | suspended | resumed => cases hnone
  · obtain ⟨hsame, hafter⟩ := h.report ht.indexed hu.indexed store hid
    rw [hsame]
    exact ⟨.refl id _, hafter⟩

/-- **A command that concerns the thread** is handled alike. -/
theorem alike_handleCommand (h : Alike id t u) (ht : t.registry.Exact) (hu : u.registry.Exact)
    {c : Command} (hc : c.concerns id = true) :
    Effects.Alike id (t.handleCommand c).1 (u.handleCommand c).1 ∧
      Alike id (t.handleCommand c).2 (u.handleCommand c).2 := by
  unfold handleCommand
  rw [h.isTerminated]
  split
  · exact ⟨.refl id _, h⟩
  · cases c with
    | resume thread mode =>
        obtain rfl : thread = id := of_decide_eq_true hc
        dsimp only
        rw [h.transition]
        split
        · next next htrans =>
            obtain ⟨before, hbefore, happly⟩ := exists_of_transition htrans
            exact ⟨.refl thread _,
              h.setThread ht.indexed hu.indexed hbefore (DebugThread.applyResume_cases happly).1⟩
        · exact ⟨.refl thread _, h⟩
    | disconnect =>
        obtain ⟨hcallbacks, hended⟩ := h.terminate ht hu none
        exact ⟨⟨hcallbacks, rfl, rfl⟩, hended⟩
    | terminate => exact ⟨.refl id _, h⟩
    | setBreakpoint => cases hc

/-! ### What other threads do -/

/-- What follows from the announcement of a script is about its thread. -/
theorem isAbout_scriptReady (t : Target) (store : BreakpointStore) (id : ThreadId) (script : Snapshot)
    (root : Bool) : (t.scriptReady store id script root).1.IsAbout id := by
  have hinstall : ∀ c ∈ installCommands store script,
      ∃ script b action, c = .setBreakpoint script b action := by
    intro c hc
    unfold installCommands at hc
    split at hc
    · obtain ⟨b, -, rfl⟩ := List.mem_map.mp hc
      exact ⟨_, _, _, rfl⟩
    · cases hc
  -- Its callbacks are about the thread, its commands resume it or install breakpoints.
  have hcontact : ∀ c ∈ (if (t.registry.contact id).1 then [Callback.threadCreated id] else []),
      c.thread? = some id := by
    intro c hc
    split at hc
    · rw [List.mem_singleton.mp hc]
      rfl
    · cases hc
  have hcommands : ∀ (mode : Mode), ∀ c ∈ installCommands store script ++ [.resume id mode],
      (∃ mode, c = .resume id mode) ∨ ∃ script b action, c = .setBreakpoint script b action := by
    intro mode c hc
    obtain hc | hc := List.mem_append.mp hc
    · exact .inr (hinstall c hc)
    · exact .inl ⟨mode, List.mem_singleton.mp hc⟩
  unfold scriptReady
  dsimp only
  split
  · split
    · split
      · refine ⟨fun c hc => ?_, hcommands _, rfl⟩
        simp only [List.mem_append, List.mem_singleton] at hc
        obtain (hc | rfl) | rfl := hc
        · exact hcontact c hc
        · rfl
        · rfl
      · refine ⟨fun c hc => ?_, hcommands _, rfl⟩
        simp only [List.mem_append, List.mem_singleton] at hc
        obtain hc | rfl := hc
        · exact hcontact c hc
        · rfl
    · refine ⟨fun c hc => ?_, fun c hc => .inl ⟨_, List.mem_singleton.mp hc⟩, rfl⟩
      simp only [List.mem_append, List.mem_singleton] at hc
      obtain hc | rfl := hc
      · exact hcontact c hc
      · rfl
  · exact ⟨hcontact, by simp, rfl⟩

/-- **What follows from a report is about its thread.** -/
theorem isAbout_handleNotification (t : Target) (store : BreakpointStore) {n : Notification}
    (hid : n.thread? = some id) : (t.handleNotification store n).1.IsAbout id := by
  cases hs : t.state with
  | terminated =>
      simp only [handleNotification, hs]
      exact Effects.isAbout_nothing id
  | notStarted =>
      rw [handleNotification_of_notStarted hs store hid]
      exact Effects.isAbout_nothing id
  | running =>
      cases n with
      | engineStarted | engineTerminated => cases hid
      | scriptReady thread script root =>
          obtain rfl := Option.some.inj hid
          simpa only [handleNotification, hs] using t.isAbout_scriptReady store thread script root
      | stackFrames thread frames =>
          obtain rfl := Option.some.inj hid
          simp only [handleNotification, hs, stackFrames]
          split <;> exact ⟨by simp [Callback.thread?], by simp, rfl⟩
      | suspended thread frames reason =>
          obtain rfl := Option.some.inj hid
          simp only [handleNotification, hs, suspended]
          split
          · split <;> exact ⟨by simp [Callback.thread?], by simp, rfl⟩
          · exact Effects.isAbout_nothing thread
      | resumed thread mode =>
          obtain rfl := Option.some.inj hid
          simp only [handleNotification, hs, resumed]
          split
          · exact Effects.isAbout_nothing thread
          · split
            · exact Effects.isAbout_nothing thread
            · refine ⟨fun c hc => ?_, by simp, rfl⟩
              split at hc
              · cases hc
              · rw [List.mem_singleton.mp hc]
                rfl

/-- **A report about another thread** is no matter of this one. -/
theorem alike_report (ht : t.registry.Indexed) (store : BreakpointStore) {n : Notification}
    (hn : n.concerns id = false) : Effects.Alike id {} (t.handleNotification store n).1 ∧
      Alike id t (t.handleNotification store n).2 := by
  obtain ⟨other, hother, hne⟩ := Notification.exists_other hn
  refine ⟨(t.isAbout_handleNotification store hother).alike hne, ?_⟩
  obtain hsame | ⟨next, hm⟩ := report_cases ht store hother
  · rw [hsame]
    exact .refl id t
  · exact hm.alike hne

/-- **Nor is a command for another thread.** -/
theorem alike_command (ht : t.registry.Indexed) {c : Command} (hc : c.concerns id = false) :
    ((t.handleCommand c).1.callbacks.filter fun c => c.concerns id) = [] ∧
      (t.handleCommand c).1.followUps = [] ∧ Alike id t (t.handleCommand c).2 := by
  unfold handleCommand
  split
  · exact ⟨rfl, rfl, .refl id t⟩
  · cases c with
    | terminate | disconnect => cases hc
    | setBreakpoint => exact ⟨rfl, rfl, .refl id t⟩
    | resume other mode =>
        have hne : other ≠ id := of_decide_eq_false hc
        dsimp only
        split
        · next next htrans =>
            obtain ⟨before, hbefore, happly⟩ := exists_of_transition htrans
            refine ⟨?_, rfl, ?_⟩
            · simp [Callback.concerns, Callback.thread?, hne]
            · exact (moves_of_transition ht hbefore (DebugThread.applyResume_cases happly).1).alike hne
        · exact ⟨rfl, rfl, .refl id t⟩

end Target

end Pausepoint
