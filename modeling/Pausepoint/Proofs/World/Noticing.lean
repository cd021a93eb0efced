import Pausepoint.Cli.Controller
import Pausepoint.Proofs.Session.Display
import Pausepoint.Proofs.Session.Parting
import Pausepoint.Proofs.World.Orderly
import Pausepoint.Proofs.World.Stepping

/-!
# Pausepoint.Proofs.World.Noticing

The controller gets to know of every stop, and of none twice.

A stop is signalled when the listener is told that the thread is suspended, which comes after the target has
changed. `World.Noticed` says that no stop is forgotten: while a thread is suspended otherwise than by a load,
the stop was shown and its answer is queued; or it awaits an answer, and it was signalled, or is about to be. What
tells stops apart is the frame on top of the stack: every stop publishes frames of its own, and those that were
published before are known to the target (`Target.Recalls`).
-/

namespace Pausepoint

namespace Target

variable {t t' : Target} {id : ThreadId} {last : Option World.Handle} {cs : List Callback}

/-! ### Stops -/

/-- A thread is suspended, and not because it has loaded a script. -/
def HasStopped (t : Target) (id : ThreadId) : Prop :=
  ∃ reason, t.standing id = some (.suspended, reason) ∧ reason ≠ some .scriptLoaded

theorem HasStopped.stateOf (h : t.HasStopped id) : t.stateOf id = some .suspended := by
  obtain ⟨reason, hstanding, -⟩ := h
  rw [stateOf_eq_standing, hstanding]
  rfl

/-- Whoever is spared, and has stopped, is as before. -/
theorem HasStopped.thread_eq (h : t'.HasStopped id) (hs : t.Spares t' id) : t'.thread? id = t.thread? id :=
  hs.thread.resolve_right fun hnot => hnot h.stateOf

theorem HasStopped.of_thread_eq (h : t'.HasStopped id) (hs : t'.thread? id = t.thread? id) :
    t.HasStopped id := by
  rwa [HasStopped, standing, hs] at h

/-- The listener is told of a stop, and of its frames. -/
theorem callback_of_suspended {frames : List Frame} {reason : Reason}
    (h : (t.suspended id frames reason).2.HasStopped id) : t.HasStopped id ∨
      .threadStateChanged id .suspended ∈ (t.suspended id frames reason).1.callbacks ∧
        .stackFramesChanged id ∈ (t.suspended id frames reason).1.callbacks := by
  unfold suspended at h ⊢
  split at h
  · next thread htrans =>
      obtain ⟨before, -, hsuspend⟩ := exists_of_transition htrans
      obtain ⟨-, hstate, -, -⟩ := DebugThread.suspend_cases hsuspend
      have hne : thread.state ≠ .terminated := by
        rw [hstate]
        decide
      obtain ⟨replaced, hframes, -⟩ := DebugThread.replaceFrames_of_ne hne (t.shown frames)
      refine .inr ?_
      simp [hframes, hstate]
  · exact .inl h

/-- **A report that stops a thread** is told to the listener. -/
theorem callback_of_report (hr : t.registry.Indexed) (hrun : t.state = .running)
    (store : BreakpointStore) {n : Notification} (hid : n.thread? = some id)
    (hfinds : n.Finds (t.stateOf id)) (h : (t.handleNotification store n).2.HasStopped id) :
    t.HasStopped id ∨ n.isPause = true ∧
      .threadStateChanged id .suspended ∈ (t.handleNotification store n).1.callbacks ∧
      .stackFramesChanged id ∈ (t.handleNotification store n).1.callbacks := by
  obtain ⟨next, hm, hleads, hreason⟩ := moves_of_finds hr hrun store hid hfinds
  have hsuspended : n.leads (t.stateOf id) = some .suspended := by
    rw [← hleads, ← hm.stateOf_self]
    exact h.stateOf
  cases n with
  | engineStarted | engineTerminated => cases hid
  | scriptReady other script root =>
      -- The thread was suspended by the load.
      obtain ⟨reason, hstanding, hne⟩ := h
      rw [standing, hm.self] at hstanding
      have hlast : next.lastSuspend = reason := congrArg Prod.snd (Option.some.inj hstanding)
      exact absurd (hlast.symm.trans (hreason rfl)) hne
  | stackFrames other frames =>
      obtain ⟨s, hs, hruns⟩ := hfinds
      cases hs.symm.trans hsuspended
      exact absurd rfl hruns.ne_suspended
  | resumed other mode => exact absurd (Option.some.inj hsuspended) mode.runs_resultingState.ne_suspended
  | suspended other frames reason =>
      obtain rfl := Option.some.inj hid
      simp only [handleNotification, hrun] at h ⊢
      exact (callback_of_suspended h).imp_right fun htold => ⟨rfl, htold⟩

/-! ### Frames on top -/

/-- The frame on top of the stack of a thread. -/
def topOf (t : Target) (id : ThreadId) : Option World.Handle :=
  (t.sheetsOf id).2.head?.map fun slot => ⟨id, slot⟩

/-- The frames of stacks are published, and so is the one that was on top at the last stop. -/
structure Recalls (last : Option World.Handle) (t : Target) : Prop where
  exact : t.registry.Exact
  stacked : ∀ id, ∀ slot ∈ (t.sheetsOf id).2, slot < (t.sheetsOf id).1.length
  published : ∀ h ∈ last, h.slot < (t.sheetsOf h.thread).1.length

/-- Another stack is one of frames that are published, and none is forgotten. -/
theorem published_of_restacked {old new : List Frame × List Nat} (h : Restacked old new)
    (hold : ∀ slot ∈ old.2, slot < old.1.length) :
    old.1.length ≤ new.1.length ∧ ∀ slot ∈ new.2, slot < new.1.length := by
  obtain ⟨frames, below, hbelow, rfl⟩ := h
  dsimp only
  rw [List.length_append]
  refine ⟨Nat.le_add_right _ _, ?_⟩
  intro slot hslot
  rcases List.mem_append.mp hslot with hfresh | hkept
  · obtain ⟨place, hplace, rfl⟩ := List.mem_map.mp hfresh
    exact Nat.add_lt_add_left (List.mem_range.mp hplace) _
  · rcases hbelow with rfl | ⟨rfl, -⟩
    · cases hkept
    · exact Nat.lt_of_lt_of_le (hold slot hkept) (Nat.le_add_right _ _)

theorem Recalls.tells (h : t.Recalls last) (ht : t.Tells t' cs) : t'.Recalls last := by
  have hall (id : ThreadId) : (t.sheetsOf id).1.length ≤ (t'.sheetsOf id).1.length ∧
      ∀ slot ∈ (t'.sheetsOf id).2, slot < (t'.sheetsOf id).1.length := by
    by_cases hstack : .stackFramesChanged id ∈ cs
    · exact published_of_restacked ((ht.stacked id).1 hstack) (h.stacked id)
    · rw [(ht.stacked id).2 hstack]
      exact ⟨Nat.le_refl _, h.stacked id⟩
  exact ⟨ht.exact, fun id => (hall id).2, fun handle hlast =>
    Nat.lt_of_lt_of_le (h.published handle hlast) (hall handle.thread).1⟩

theorem Recalls.rereads (h : t.Recalls last) (ht : t.Rereads t') : t'.Recalls last := by
  refine ⟨ht.exact h.exact, fun id => ?_, fun handle hlast => ?_⟩
  · rw [ht.sheets h.exact]
    exact h.stacked id
  · rw [ht.sheets h.exact]
    exact h.published handle hlast

/-- The frame that is on top now may be remembered. -/
theorem Recalls.topOf (h : t.Recalls last) (id : ThreadId) : t.Recalls (t.topOf id) := by
  refine ⟨h.exact, h.stacked, ?_⟩
  intro handle htop
  obtain ⟨slot, hslot, rfl⟩ := Option.map_eq_some_iff.mp htop
  exact h.stacked id slot (List.mem_of_mem_head? hslot)

/-- **Another stack has another frame on top** than the one that is remembered. -/
theorem topOf_ne_of_restacked (h : t.Recalls last) (hs : Restacked (t.sheetsOf id) (t'.sheetsOf id)) :
    ∀ handle ∈ last, t'.topOf id ≠ some handle := by
  intro handle hlast htop
  obtain ⟨frames, below, hbelow, hnew⟩ := hs
  obtain ⟨slot, hslot, rfl⟩ := Option.map_eq_some_iff.mp htop
  have hfresh : slot = (t.sheetsOf id).1.length := by
    rw [hnew] at hslot
    cases frames with
    | nil =>
        rcases hbelow with rfl | ⟨-, hlength⟩
        · cases hslot
        · cases hlength
    | cons frame rest =>
        rw [List.length_cons, List.range_succ_eq_map] at hslot
        exact (Option.some.inj hslot).symm
  have hpublished : slot < (t.sheetsOf id).1.length := h.published _ hlast
  omega

end Target

namespace World

variable {w w' : World} {thread : ThreadId} {last : Option Handle} {signalled signalled' : Prop}

/-- What is on top is that of the same thread. -/
theorem topOf_of_thread_eq {t t' : Target} (h : t'.thread? thread = t.thread? thread) :
    t'.topOf thread = t.topOf thread := by
  rw [Target.topOf, Target.topOf, Target.sheetsOf, Target.sheetsOf, h]

/-! ### The invariant -/

/-- An answer to a thread is queued. -/
def Answered (thread : ThreadId) (w : World) : Prop :=
  ∃ mode, .command (.resume thread mode) ∈ w.session.queue.events

/-- **The invariant**: of a stop that the answer is queued to, the frame on top was shown; any other is signalled,
or is about to be, and it is not the one that was shown last. -/
def Noticed (thread : ThreadId) (last : Option Handle) (signalled : Prop) (w : World) : Prop :=
  w.session.target.HasStopped thread →
    w.Answered thread ∧ (∃ top ∈ last, w.session.target.topOf thread = some top) ∨
      ¬ w.Answered thread ∧
        (.callback (.threadStateChanged thread .suspended) ∈ w.session.worker.agenda ∨ signalled) ∧
        ∀ top ∈ last, w.session.target.topOf thread ≠ some top

theorem Noticed.mono (h : w.Noticed thread last signalled) (hs : signalled → signalled') :
    w.Noticed thread last signalled' :=
  fun hstopped => (h hstopped).imp_right fun ⟨hfree, htold, htop⟩ => ⟨hfree, htold.imp_right hs, htop⟩

/-- A stop that nobody has answered awaits an answer. -/
theorem awaits_of_hasStopped (hw : w.Wakeful) (hl : w.session.IsLive)
    (hstopped : w.session.target.HasStopped thread) (hfree : ¬ w.Answered thread) : w.AwaitsAnswer thread := by
  have hsuspended := hstopped.stateOf
  obtain ⟨reason, hstanding, hne⟩ := hstopped
  obtain ⟨t, ht, hboth⟩ := Option.map_eq_some_iff.mp hstanding
  obtain ⟨hstate, hlast⟩ := Prod.mk.inj hboth
  refine ⟨(hw.concord hl).running hl hsuspended, ?_, ?_, fun mode hmode => hfree ⟨mode, hmode⟩⟩
  · rw [Session.threadState, ht, ← hstate]
  · rw [Session.suspendReason, ht]
    intro hloaded
    exact hne (hlast.symm.trans (Except.ok.inj hloaded))

/-- Whoever awaits an answer has stopped. -/
theorem AwaitsAnswer.hasStopped (h : w.AwaitsAnswer thread) : w.session.target.HasStopped thread := by
  have hsuspended := h.suspended
  have hstop := h.stop
  unfold Session.threadState at hsuspended
  split at hsuspended
  · next t ht =>
      refine ⟨t.lastSuspend, ?_, ?_⟩
      · rw [Target.standing, ht]
        exact congrArg (fun state => some (state, t.lastSuspend)) (Except.ok.inj hsuspended)
      · intro hloaded
        refine hstop ?_
        rw [Session.suspendReason, ht, ← hloaded]
  · cases hsuspended

/-- No report about a thread that has stopped waits. -/
theorem lane_of_hasStopped (ha : w.session.Agrees) (h : w.session.target.HasStopped thread) :
    lane thread w.session.queue.events = [] := by
  have hon := ha.agreesOn thread
  have hfits := hon.fits
  rw [h.stateOf] at hfits
  exact eq_nil_of_fits_suspended hon.own hfits

/-- An event that is taken leaves a thread that has stopped by then as it was, unless it is the stop. -/
theorem thread_eq_of_take (ha : w.session.Agrees) (hl : w.session.IsLive) {e : Event}
    (hown : ∀ n, e = .notification n → n.thread? ≠ some thread)
    (hstopped : (w.session.targetAfter e).HasStopped thread) :
    (w.session.targetAfter e).thread? thread = w.session.target.thread? thread ∧
      ∀ mode, e ≠ .command (.resume thread mode) := by
  cases e with
  | command c =>
      have hspared (mode : Mode) (hc : c = .resume thread mode) :
          w.session.target.stateOf thread ≠ some .suspended := by
        intro hsuspended
        subst hc
        obtain ⟨next, hm, hstate, -⟩ :=
          Target.moves_of_resume ha.indexed (Session.isTerminated_eq_false hl) mode hsuspended
        have hafter : some next.state = some .suspended := by
          rw [← hm.stateOf_self]
          exact hstopped.stateOf
        rw [hstate] at hafter
        exact absurd (Option.some.inj hafter) mode.runs_resultingState.ne_suspended
      have hsame : (w.session.target.handleCommand c).2.thread? thread = w.session.target.thread? thread :=
        hstopped.thread_eq (Target.spares_command ha.indexed hspared)
      refine ⟨hsame, ?_⟩
      intro mode he
      cases he
      exact hspared mode rfl (hstopped.of_thread_eq hsame).stateOf
  | notification n =>
      have hid := hown n rfl
      refine ⟨hstopped.thread_eq (Target.spares_report ha.indexed w.session.breakpoints
        (fun hn => absurd hn hid) ?_), nofun⟩
      intro frames hn
      subst hn
      exact hid rfl

/-- **The next event.** Where it is the report of a stop, no answer to the thread is queued yet. -/
theorem noticed_take (ha : w.session.Agrees) (hl : w.session.IsLive)
    (hrecalls : w.session.target.Recalls last) (h : w.Noticed thread last signalled)
    (hfirst : ∀ n, .notification n ∈ w.session.queue.events → n.thread? = some thread → n.isPause = true →
      ¬ w.Answered thread) {session : Session} (hs : w.session.take? = some session) :
    (w.withSession session).Noticed thread last signalled := by
  obtain ⟨hidle, e, rest, hevents, rfl⟩ := Session.take?_open ha.queue_open hl.queue hs
  intro hstopped
  have htarget : ((w.session.withEvents rest).handle e).target = w.session.targetAfter e := by
    rw [Session.target_handle, Session.targetAfter_withEvents]
  have hagenda : ((w.session.withEvents rest).handle e).worker.agenda = w.session.tasksAfter e := by
    rw [Session.agenda_handle, Session.tasksAfter_withEvents]
  have hqueue : ((w.session.withEvents rest).handle e).queue.events = rest := by
    rw [Session.queue_handle]
    rfl
  change ((w.session.withEvents rest).handle e).target.HasStopped thread at hstopped
  rw [htarget] at hstopped
  -- Fewer answers are queued than before.
  have hanswered (hafter : (w.withSession ((w.session.withEvents rest).handle e)).Answered thread) :
      w.Answered thread := by
    obtain ⟨mode, hmode⟩ := hafter
    refine ⟨mode, ?_⟩
    rw [hevents]
    exact List.mem_cons_of_mem _ (hqueue ▸ hmode)
  by_cases hown : ∃ n, e = .notification n ∧ n.thread? = some thread
  · obtain ⟨n, rfl, hid⟩ := hown
    obtain ⟨hrun, hfinds⟩ := ha.head_finds hl hevents hid
    obtain ⟨hpause, htold, hstack⟩ :=
      (Target.callback_of_report ha.indexed hrun w.session.breakpoints hid hfinds hstopped).resolve_left
        (fun hold => by
          have hlane := lane_of_hasStopped ha hold
          rw [hevents, lane_cons_self hid] at hlane
          cases hlane)
    have htells := Target.tells_handleNotification hrecalls.exact w.session.breakpoints n
    refine .inr ⟨fun hafter => ?_, .inl ?_, ?_⟩
    · refine hfirst n ?_ hid hpause (hanswered hafter)
      rw [hevents]
      exact List.mem_cons_self
    · show _ ∈ ((w.session.withEvents rest).handle (.notification n)).worker.agenda
      rw [hagenda]
      simp only [Session.tasksAfter, notificationTasks, List.mem_append]
      exact .inl (.inl (List.mem_map_of_mem htold))
    · show ∀ top ∈ last, ((w.session.withEvents rest).handle (.notification n)).target.topOf thread ≠ _
      rw [htarget]
      exact Target.topOf_ne_of_restacked hrecalls ((htells.stacked thread).1 hstack)
  · -- Whoever had stopped before has nothing more to be told.
    obtain ⟨hsame, hother⟩ := thread_eq_of_take ha hl (fun n he hid => hown ⟨n, he, hid⟩) hstopped
    have htop : (w.withSession ((w.session.withEvents rest).handle e)).session.target.topOf thread =
        w.session.target.topOf thread := by
      show ((w.session.withEvents rest).handle e).target.topOf thread = _
      rw [htarget]
      exact topOf_of_thread_eq hsame
    rw [htop]
    rcases h (hstopped.of_thread_eq hsame) with ⟨⟨mode, hmode⟩, hlast⟩ | ⟨hfree, htold, hlast⟩
    · rw [hevents] at hmode
      refine .inl ⟨⟨mode, ?_⟩, hlast⟩
      show _ ∈ ((w.session.withEvents rest).handle e).queue.events
      rw [hqueue]
      exact (List.mem_cons.mp hmode).resolve_left fun he => hother mode he.symm
    · refine .inr ⟨fun hafter => hfree (hanswered hafter), .inr (htold.resolve_left ?_), hlast⟩
      rw [hidle]
      exact List.not_mem_nil

/-- **The next task**, by which the stop may be signalled. Nothing that follows a load is left to do where a
thread awaits an answer. -/
theorem noticed_perform (hstands : w.session.Stands) (h : w.Noticed thread last signalled)
    (hsettled : w.session.target.HasStopped thread → ¬ w.Answered thread → w.session.following = [])
    {task : Task} {session : Session} (hs : w.session.perform? = some (task, session)) {w' : World}
    (hw' : w'.session = session) :
    w'.Noticed thread last (signalled ∨ .stopped thread ∈ signals (reportOf session task)) := by
  obtain ⟨-, -, hevents⟩ := hstands.perform hs
  obtain ⟨rest, hagenda, rfl⟩ := Session.perform?_cases hs
  have htarget : w'.session.target = w.session.target := by
    rw [hw']
    exact Session.target_effect _ task
  intro hstopped
  rw [htarget] at hstopped ⊢
  have hagenda' : w'.session.worker.agenda = rest := by
    rw [hw', Session.agenda_effect, Session.agenda_withAgenda]
  rw [hagenda']
  rcases h hstopped with ⟨⟨mode, hmode⟩, htop⟩ | ⟨hfree, htold, htop⟩
  · exact .inl ⟨⟨mode, hw' ▸ hevents hmode⟩, htop⟩
  · refine .inr ⟨?_, ?_, htop⟩
    · intro ⟨mode, hmode⟩
      refine hfree ⟨mode, ?_⟩
      rw [hw'] at hmode
      cases task with
      | followUp c =>
          have hnone := hsettled hstopped hfree
          rw [Session.following, hagenda] at hnone
          cases hnone
      | closeQueue => cases hmode
      | callback | lastCallback | release | releaseAll | forward | command | closeGate | forwardClosed
      | announceClosed | finish => exact hmode
    · rw [hagenda, List.mem_cons] at htold
      rcases htold with (hnow | hlater) | hsignalled
      · subst hnow
        exact .inr (.inr List.mem_cons_self)
      · exact .inl hlater
      · exact .inr (.inl hsignalled)

/-- **A step of the dispatcher.** -/
theorem noticed_dispatch (hc : w.Calm) (ha : w.session.Agrees) (hstands : w.session.Stands)
    (hrecalls : w.session.target.Recalls last) (h : w.Noticed thread last signalled)
    (hfirst : ∀ n, .notification n ∈ w.session.queue.events → n.thread? = some thread → n.isPause = true →
      ¬ w.Answered thread)
    (hsettled : w.session.target.HasStopped thread → ¬ w.Answered thread → w.session.following = [])
    {reports : List Report} (hd : w.dispatchStep? = some (w', reports)) :
    w'.Noticed thread last (signalled ∨ .stopped thread ∈ signals reports) := by
  obtain ⟨task, session, hs, rfl, rfl⟩ | ⟨session, -, hs, rfl, rfl⟩ := dispatchStep?_calm hc hd
  · exact noticed_perform hstands h hsettled hs (congrArg Bridge.session (noteStop_frame _ task).2.2.2.2)
  · exact (noticed_take ha hstands.live hrecalls h hfirst hs).mono .inl

/-- Only what takes leave of the listener signals an end. -/
theorem ended_of_not_parts {task : Task} (h : ¬ task.Parts) (s : Session) :
    .ended ∉ signals (reportOf s task) := by
  intro hended
  obtain ⟨report, hreport, hsignal⟩ := List.mem_filterMap.mp hended
  cases task with
  | callback c =>
      obtain rfl := List.mem_singleton.mp hreport
      cases c with
      | sessionTerminated => exact h trivial
      | threadStateChanged id state => cases state <;> cases hsignal
      | sessionCreated | threadCreated | stackFramesChanged => cases hsignal
  | lastCallback => exact h trivial
  | command c =>
      unfold reportOf at hreport
      dsimp only at hreport
      split at hreport
      · cases hreport
      · obtain rfl := List.mem_singleton.mp hreport
        cases hsignal
  | release | releaseAll | followUp | forward | closeQueue | closeGate | forwardClosed | announceClosed
  | finish => cases hreport

/-- What is remembered stays published. -/
theorem recalls_dispatch (hc : w.Calm) (h : w.session.target.Recalls last) {reports : List Report}
    (hd : w.dispatchStep? = some (w', reports)) : w'.session.target.Recalls last := by
  obtain ⟨-, -, ⟨task, session, hs, hb⟩ | ⟨session, -, hs, hb⟩⟩ := dispatchStep?_cases hc hd
  · rw [World.session, hb]
    obtain ⟨rest, -, rfl⟩ := Session.perform?_cases hs
    rw [Session.target_effect]
    exact h
  · rw [World.session, hb]
    obtain ⟨-, ⟨e, rest, -, rfl⟩ | ⟨-, rfl⟩⟩ := Session.take?_cases hs
    · rw [Session.target_handle, Session.targetAfter_withEvents]
      cases e with
      | notification n => exact h.tells (Target.tells_handleNotification h.exact _ n)
      | command c => exact h.tells (Target.tells_handleCommand h.exact c)
    · exact h

end World

end Pausepoint
