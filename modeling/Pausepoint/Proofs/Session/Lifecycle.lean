import Pausepoint.Proofs.Session.Faults
import Pausepoint.Proofs.Session.Mirror

/-!
# Pausepoint.Proofs.Session.Lifecycle

A session has one life: it starts at most once, ends at most once, and what it leaves stays as it is.

`lifecycle_is_safe` is the main result. It holds of every run in single steps: anyone reports, calls,
gives up on pauses and cancels at any moment, and client code may fail wherever it runs.

Proof shape: the handlers of the target are looked at once, for how far the session is
(`stage_targetAfter`) and for what its threads are doing (`sound_targetAfter`). The invariant `Lived` then
keeps account of the farewell, which is told already or due, and of the end of the dispatcher, which has
come or stands at the end of the agenda. What a session that is over keeps needs no invariant: no step
changes its target, but for what is read of frames (`rereads_of_terminated`).
-/

namespace Pausepoint

/-- How far on its way a session is; it only goes forward. -/
def SessionState.stage : SessionState → Nat
  | .notStarted => 0
  | .running => 1
  | .terminated => 2

theorem SessionState.stage_le_terminated (state : SessionState) :
    state.stage ≤ SessionState.terminated.stage := by
  cases state <;> decide

/-- What a known thread may be doing in a session: it has been heard of, and it has ended if and only if
the session has. -/
def SessionState.Admits (state : SessionState) (thread : ThreadState) : Prop :=
  thread ≠ .notStarted ∧ (thread = .terminated ↔ state = .terminated)

theorem SessionState.admits_of_active {state : SessionState} {thread : ThreadState}
    (hstate : state ≠ .terminated) (h : thread.IsActive) : state.Admits thread := by
  rcases h with rfl | rfl | rfl <;> simp [Admits, hstate]

/-- At most the last of some callbacks is a farewell. -/
def PartsLast (cs : List Callback) : Prop :=
  farewells cs.dropLast = []

theorem partsLast_of_none {cs : List Callback} (h : farewells cs = []) : PartsLast cs := by
  refine List.eq_nil_of_sublist_nil ?_
  rw [← h]
  exact (List.dropLast_sublist cs).filterMap _

theorem PartsLast.of_append {cs ds : List Callback} (h : PartsLast (cs ++ ds)) : PartsLast cs := by
  cases ds with
  | nil => rwa [List.append_nil] at h
  | cons d rest =>
      refine partsLast_of_none ?_
      rw [PartsLast, List.dropLast_append_cons, farewells_append, List.append_eq_nil_iff] at h
      exact h.1

theorem PartsLast.eq_nil_after {before after : List Callback} {fault : Option Fault}
    (h : PartsLast (before ++ .sessionTerminated fault :: after)) : after = [] := by
  cases after with
  | nil => rfl
  | cons c rest =>
      rw [PartsLast, List.dropLast_append_cons, List.dropLast_cons_cons, farewells_append,
        List.append_eq_nil_iff] at h
      cases h.2

theorem PartsLast.length_farewells_le {cs : List Callback} (h : PartsLast cs) :
    (farewells cs).length ≤ 1 := by
  rcases List.eq_nil_or_concat cs with rfl | ⟨before, c, rfl⟩
  · exact Nat.zero_le _
  · rw [List.concat_eq_append] at h ⊢
    rw [PartsLast, List.dropLast_concat] at h
    rw [farewells_append, h, List.nil_append]
    exact List.length_filterMap_le _ [c]

/-! ### What handlers do to the target -/

namespace Target

variable {t : Target}

/-- The known threads fit how far the session is. -/
def Sound (t : Target) : Prop :=
  ∀ id, ∀ state ∈ t.stateOf id, t.state.Admits state

/-- A thread that becomes active leaves the others as they are. -/
theorem Sound.setThread (h : t.Sound) (hr : t.registry.Indexed) (ht : t.state ≠ .terminated)
    {id : ThreadId} {before next : DebugThread} (hbefore : t.thread? id = some before)
    (hid : next.id = before.id) (hnext : next.state.IsActive) : (t.setThread next).Sound := by
  have hthread := hid.trans (id_of_thread? hr hbefore)
  subst hthread
  have hm := moves_setThread hr next hbefore
  intro other state hstate
  by_cases he : other = next.id
  · rw [he, hm.stateOf_self, Option.mem_some] at hstate
    exact hstate ▸ SessionState.admits_of_active ht hnext
  · rw [hm.stateOf_of_ne he] at hstate
    exact h other state hstate

/-- A thread that is heard of for the first time can be suspended, so that none is left unstarted. -/
theorem sound_scriptReady (h : t.Sound) (hr : t.registry.Indexed) (ht : t.state = .running)
    (store : BreakpointStore) (id : ThreadId) (script : Snapshot) (root : Bool) :
    (t.scriptReady store id script root).2.Sound := by
  have hlive : t.state ≠ .terminated := by rw [ht]; decide
  have hget := Registry.get?_contact hr id
  have hr' := Registry.indexed_contact hr id
  -- Whatever becomes of the thread, all others are as before.
  have hset {before next : DebugThread}
      (hbefore : thread? { t with registry := (t.registry.contact id).2 } id = some before)
      (hid : next.id = before.id) (hnext : next.state = .suspended) :
      (setThread { t with registry := (t.registry.contact id).2 } next).Sound := by
    have hthread := hid.trans (id_of_thread? hr' hbefore)
    subst hthread
    have hm := moves_setThread_contact hr next
    intro other state hstate
    by_cases he : other = next.id
    · rw [he, hm.stateOf_self, Option.mem_some] at hstate
      exact hstate ▸ SessionState.admits_of_active hlive (.inl hnext)
    · rw [hm.stateOf_of_ne he] at hstate
      exact h other state hstate
  unfold scriptReady
  dsimp only
  split
  · next thread htrans =>
      obtain ⟨before, hbefore, hsuspend⟩ := exists_of_transition htrans
      obtain ⟨hid, hstate, -, -⟩ := DebugThread.suspend_cases hsuspend
      split
      · split
        · next pushed hpush =>
            obtain ⟨hid', hstate'⟩ := DebugThread.pushFrame_cases hpush
            exact hset hbefore (hid'.trans hid) (hstate'.trans hstate)
        · exact hset hbefore hid hstate
      · exact hset hbefore hid hstate
  · next htrans =>
      intro other state hstate
      rw [stateOf, thread?, hget] at hstate
      split at hstate
      · next he =>
          subst he
          cases hknown : t.registry.get? other with
          | none =>
              -- The new thread would have been suspended.
              rw [transition?, thread?, hget, if_pos rfl, hknown] at htrans
              cases htrans
          | some thread =>
              rw [hknown] at hstate
              exact h other state (by rw [stateOf, thread?, hknown]; exact hstate)
      · exact h other state hstate

theorem sound_terminate (h : t.Sound) (fault : Option Fault) : (t.terminate fault).2.Sound := by
  unfold terminate
  split
  · exact h
  · intro id state hstate
    rw [stateOf, thread?] at hstate
    dsimp only at hstate
    rw [Registry.get?_terminateAll, Option.map_map] at hstate
    obtain ⟨thread, -, rfl⟩ := Option.map_eq_some_iff.mp (Option.mem_def.mp hstate)
    exact ⟨by simp [DebugThread.terminate], fun _ => rfl, fun _ => rfl⟩

/-- The end of the engine is the end of the session, if it is not over. -/
theorem handleNotification_engineTerminated (t : Target) (store : BreakpointStore) :
    t.handleNotification store .engineTerminated =
      ({ callbacks := (t.terminate none).1 }, (t.terminate none).2) := by
  cases h : t.state with
  | terminated => simp [handleNotification, terminate, isTerminated, h]
  | notStarted | running => simp [handleNotification, h]

theorem sound_handleNotification (h : t.Sound) (hr : t.registry.Indexed) (store : BreakpointStore)
    (n : Notification) : (t.handleNotification store n).2.Sound := by
  have hrunning {t : Target} (ht : t.state = .running) : t.state ≠ .terminated := by
    rw [ht]
    decide
  unfold handleNotification
  split
  · exact h
  · next hstate =>
      intro id state hmem
      have hfits := h id state hmem
      rw [SessionState.Admits, hstate] at hfits
      exact ⟨hfits.1, hfits.2.trans ⟨nofun, nofun⟩⟩
  · exact h
  · exact sound_terminate h none
  · exact h
  · next hstate => exact sound_scriptReady h hr hstate store _ _ _
  · next hstate =>
      unfold stackFrames
      split
      · next thread htrans =>
          -- Another stack leaves the state of its thread as it is.
          obtain ⟨before, hbefore, hframes⟩ := exists_of_transition htrans
          obtain ⟨hid, hsame⟩ := DebugThread.replaceFrames_cases hframes
          intro id state hmem
          have hm := moves_setThread hr thread
            ((congrArg t.thread? (hid.trans (id_of_thread? hr hbefore))).trans hbefore)
          by_cases he : id = thread.id
          · rw [he, hm.stateOf_self, hsame] at hmem
            exact h _ state (by rw [stateOf, hbefore]; exact hmem)
          · rw [hm.stateOf_of_ne he] at hmem
            exact h id state hmem
      · exact h
  · next hstate =>
      unfold suspended
      split
      · next thread htrans =>
          obtain ⟨before, hbefore, hsuspend⟩ := exists_of_transition htrans
          obtain ⟨hid, hsuspended, -, -⟩ := DebugThread.suspend_cases hsuspend
          dsimp only
          split
          · next replaced hframes =>
              obtain ⟨hid', hsame⟩ := DebugThread.replaceFrames_cases hframes
              exact h.setThread hr (hrunning hstate) hbefore (hid'.trans hid)
                (.inl (hsame.trans hsuspended))
          · exact h.setThread hr (hrunning hstate) hbefore hid (.inl hsuspended)
      · exact h
  · next mode hstate =>
      unfold resumed
      split
      · exact h
      · next before hbefore =>
          split
          · exact h
          · next thread hresumed =>
              obtain ⟨hid, -⟩ := DebugThread.noteResumed_cases hresumed
              -- A thread that goes on is resumed or stepping, in either case one of a running session.
              refine h.setThread hr (hrunning hstate) hbefore hid ?_
              unfold DebugThread.noteResumed at hresumed
              split at hresumed <;> cases hresumed <;> exact .inr mode.runs_resultingState

theorem sound_handleCommand (h : t.Sound) (hr : t.registry.Indexed) (c : Command) :
    (t.handleCommand c).2.Sound := by
  unfold handleCommand
  split
  · exact h
  · next hlive =>
      cases c with
      | resume id mode =>
          dsimp only
          split
          · next thread htrans =>
              obtain ⟨before, hbefore, hresume⟩ := exists_of_transition htrans
              refine h.setThread hr (by simpa [isTerminated] using hlive) hbefore
                (DebugThread.applyResume_cases hresume).1 ?_
              unfold DebugThread.applyResume at hresume
              split at hresume <;> cases hresume
              exact .inr mode.runs_resultingState
          · exact h
      | disconnect => exact sound_terminate h none
      | terminate | setBreakpoint => exact h

end Target

namespace Session

/-- Whatever event is handled, the threads fit how far the session is then. -/
theorem sound_targetAfter {s : Session} (h : s.target.Sound) (hr : s.target.registry.Exact) (e : Event) :
    (s.targetAfter e).Sound ∧ (s.targetAfter e).registry.Exact := by
  cases e with
  | notification n =>
      exact ⟨Target.sound_handleNotification h hr.indexed s.breakpoints n,
        (Target.tells_handleNotification hr s.breakpoints n).exact⟩
  | command c =>
      exact ⟨Target.sound_handleCommand h hr.indexed c, (Target.tells_handleCommand hr c).exact⟩

/-- No event takes a session back. -/
theorem stage_targetAfter (s : Session) (e : Event) :
    s.target.state.stage ≤ (s.targetAfter e).state.stage := by
  have hterminate (fault) : s.target.state.stage ≤ (s.target.terminate fault).2.state.stage := by
    rw [Target.state_terminate]
    exact s.target.state.stage_le_terminated
  cases e with
  | notification n =>
      show _ ≤ (s.target.handleNotification s.breakpoints n).2.state.stage
      unfold Target.handleNotification
      split
      · exact Nat.le_refl _
      · next hstate =>
          rw [hstate]
          exact Nat.zero_le _
      · exact Nat.le_refl _
      · exact hterminate none
      · exact Nat.le_refl _
      · exact Nat.le_of_eq (congrArg SessionState.stage (Target.state_scriptReady ..)).symm
      · exact Nat.le_of_eq (congrArg SessionState.stage (Target.state_stackFrames ..)).symm
      · exact Nat.le_of_eq (congrArg SessionState.stage (Target.state_suspended ..)).symm
      · exact Nat.le_of_eq (congrArg SessionState.stage (Target.state_resumed ..)).symm
  | command c =>
      show _ ≤ (s.target.handleCommand c).2.state.stage
      unfold Target.handleCommand
      split
      · exact Nat.le_refl _
      · cases c with
        | resume id mode =>
            dsimp only
            split <;> exact Nat.le_refl _
        | disconnect => exact hterminate none
        | terminate | setBreakpoint => exact Nat.le_refl _

/-- What an event tells holds a farewell only if it ends the session. -/
theorem farewells_tasksAfter {s : Session} (hf : s.target.fault = none) (e : Event) :
    (s.targetAfter e).fault = none ∧ farewells (toldBy (s.tasksAfter e)) =
      if (s.targetAfter e).state = .terminated ∧ s.target.state ≠ .terminated then [none] else [] := by
  cases e with
  | notification n =>
      rw [tasksAfter, toldBy_notificationTasks]
      obtain ⟨hfault, hfarewells⟩ := Target.parts_handleNotification hf s.breakpoints n
      exact ⟨hfault, hfarewells⟩
  | command c =>
      rw [tasksAfter, toldBy_commandTasks]
      obtain ⟨hfault, hfarewells⟩ := Target.parts_handleCommand hf c
      exact ⟨hfault, hfarewells⟩

/-! ### The invariant -/

/-- An event that leaves the end of the dispatcher to do is the end of the session, and closes it. -/
theorem finish_of_tasksAfter {s : Session} {e : Event} {exit : Exit}
    (h : .finish exit ∈ s.tasksAfter e) :
    exit ≠ .cancelled ∧ (s.targetAfter e).state = .terminated ∧
      ∃ before, s.tasksAfter e = before ++ closing exit := by
  cases e with
  | notification n =>
      unfold tasksAfter notificationTasks at h ⊢
      dsimp only at h ⊢
      split at h
      · next hn =>
          subst hn
          obtain rfl : exit = .engineTerminated := by simpa [closing] using h
          exact ⟨by decide, Target.state_handleNotification_engineTerminated _ _, _, rfl⟩
      · simp at h
  | command c =>
      have hrelease : .finish exit ∉ releaseTasks c := by
        cases c <;> simp [releaseTasks]
      unfold tasksAfter commandTasks at h ⊢
      dsimp only at h ⊢
      split at h
      · next hdeliver =>
          split at h
          · next hc =>
              subst hc
              obtain rfl : exit = .disconnected := by simpa [closing, releaseTasks] using h
              refine ⟨by decide, ?_, _, if_pos hdeliver⟩
              by_cases hover : s.target.state = .terminated
              · rw [targetAfter_of_terminated hover]
                exact hover
              · exact Target.state_handleCommand_disconnect hover
          · simp [hrelease] at h
      · simp at h

/-- The end of the dispatcher comes after everything else. -/
def EndsLast (tasks : List Task) : Prop :=
  ∀ exit, .finish exit ∉ tasks.dropLast

theorem endsLast_of_none {tasks : List Task} (h : ∀ exit, .finish exit ∉ tasks) : EndsLast tasks :=
  fun exit hmem => h exit (List.dropLast_subset _ hmem)

theorem endsLast_closing {before : List Task} (h : ∀ exit, .finish exit ∉ before) (exit : Exit) :
    EndsLast (before ++ closing exit) := by
  intro other
  rw [List.dropLast_append_of_ne_nil (by simp [closing])]
  simp [h other, closing]

theorem endsLast_tasksAfter (s : Session) (e : Event) : EndsLast (s.tasksAfter e) := by
  cases e with
  | notification n =>
      unfold tasksAfter notificationTasks
      dsimp only
      split
      · exact endsLast_closing (fun exit => by simp) _
      · exact endsLast_of_none fun exit => by simp
  | command c =>
      have hrelease : ∀ exit, .finish exit ∉ releaseTasks c := fun exit => by
        cases c <;> simp [releaseTasks]
      unfold tasksAfter commandTasks
      dsimp only
      split
      · split
        · exact endsLast_closing (fun exit => by simp [hrelease exit]) _
        · exact endsLast_of_none fun exit => by simp [hrelease exit]
      · exact endsLast_of_none fun exit => by simp

theorem EndsLast.tail {task : Task} {rest : List Task} (h : EndsLast (task :: rest)) :
    EndsLast rest ∧ ∀ exit, task = .finish exit → rest = [] := by
  cases rest with
  | nil => exact ⟨fun exit => List.not_mem_nil, fun _ _ => rfl⟩
  | cons next later =>
      refine ⟨fun exit hmem => h exit ?_, fun exit hfinish => absurd ?_ (h exit)⟩
      · rw [List.dropLast_cons_cons]
        exact List.mem_cons_of_mem _ hmem
      · rw [List.dropLast_cons_cons, hfinish]
        exact List.mem_cons_self

/-- An event that ends the session tells so, and leaves the end of the dispatcher to do. -/
theorem tasksAfter_of_ending {s : Session} (hlive : s.target.state ≠ .terminated) {e : Event}
    (h : (s.targetAfter e).state = .terminated) :
    toldBy (s.tasksAfter e) = (s.target.terminate none).1 ∧ ∃ exit, .finish exit ∈ s.tasksAfter e := by
  cases e with
  | notification n =>
      obtain rfl : n = .engineTerminated := Decidable.byContradiction fun hn =>
        Target.state_handleNotification hlive s.breakpoints hn h
      refine ⟨?_, .engineTerminated, ?_⟩
      · rw [tasksAfter, toldBy_notificationTasks, Target.handleNotification_engineTerminated]
      · rw [tasksAfter, notificationTasks, if_pos rfl]
        simp [closing]
  | command c =>
      obtain rfl : c = .disconnect := Decidable.byContradiction fun hc =>
        Target.state_handleCommand hlive hc h
      have heffects : (s.target.handleCommand .disconnect).1 =
          { callbacks := (s.target.terminate none).1, deliver := true } := by
        rw [Target.handleCommand, if_neg (by simpa [Target.isTerminated] using hlive)]
      refine ⟨?_, .disconnected, ?_⟩
      · rw [tasksAfter, toldBy_commandTasks, heffects]
      · rw [tasksAfter, heffects, commandTasks, if_pos rfl, if_pos rfl]
        simp [closing]

/-- The end of a target is told last, by its farewell. -/
theorem partsLast_terminate {before : List Callback} (h : farewells before = []) (t : Target)
    (fault : Option Fault) : PartsLast (before ++ (t.terminate fault).1) := by
  unfold Target.terminate
  split
  · exact partsLast_of_none (by rwa [List.append_nil])
  · dsimp only
    rw [PartsLast, ← List.append_assoc, List.dropLast_concat, farewells_append, h, List.nil_append,
      farewells, List.filterMap_map]
    exact List.filterMap_eq_nil_iff.mpr fun _ _ => rfl

/-- One task alone is the end of the dispatcher. -/
theorem exit_effect_eq (s : Session) (task : Task) : (s.effect task).worker.exit =
    match task with
    | .finish exit => some exit
    | _ => s.worker.exit := by
  cases task with
  | followUp c =>
      obtain ⟨cs, -, hc, -⟩ := s.commanded_submit c
      exact (congrArg Worker.exit hc.worker :)
  | release | releaseAll | callback | command | forward | lastCallback | closeQueue | closeGate
  | forwardClosed | announceClosed | finish => rfl

/-- **The invariant**: threads fit the session, a farewell is the last that is told, and the dispatcher
comes to its end once the session is over, or was cancelled. -/
structure Lived (trace : List Deed) (s : Session) : Prop where
  exact : s.target.registry.Exact
  sound : s.target.Sound
  parts : PartsLast (heard trace ++ toldBy s.worker.agenda)
  /-- A session that is not over has told of no end, nor is it about to. -/
  unspoken : s.state ≠ .terminated →
    s.target.fault = none ∧ farewells (heard trace ++ toldBy s.worker.agenda) = []
  /-- The end of the dispatcher, as it will come or has come, fits the session. -/
  exit : ∀ exit, .finish exit ∈ s.worker.agenda ∨ s.worker.exit = some exit →
    (exit = .cancelled ↔ s.state ≠ .terminated)
  leaving : s.state = .terminated →
    (∃ exit, .finish exit ∈ s.worker.agenda) ∨ s.worker.exit.isSome
  last : EndsLast s.worker.agenda
  /-- A dispatcher that is done has nothing left to do. -/
  done : s.worker.exit = none ∨ s.worker.agenda = []

theorem lived_create (settings : DebuggerSettings) : Lived [] (create settings) where
  exact := Registry.exact_empty
  sound _ _ := nofun
  parts := rfl
  unspoken _ := ⟨rfl, rfl⟩
  exit exit h := by rcases h with h | h <;> cases h
  leaving := nofun
  last _ := List.not_mem_nil
  done := .inl rfl

namespace Lived

variable {trace : List Deed} {s s' : Session}

theorem outside (h : Lived trace s) (hs : Proceeds s .outside s') :
    Lived (trace ++ [.outside]) s' := by
  obtain ⟨ht, hw⟩ := hs.outside
  have hstate : s'.state = s.state := ht.state
  have hheard : heard (trace ++ [.outside]) = heard trace := by simp [Deed.told?]
  refine ⟨ht.exact h.exact, fun id state hmem => ?_, ?_, ?_, ?_, ?_, hw ▸ h.last, hw ▸ h.done⟩
  · rw [ht.stateOf h.exact] at hmem
    rw [ht.state]
    exact h.sound id state hmem
  · rw [hheard, hw]
    exact h.parts
  · rw [hheard, hw, hstate, ht.fault]
    exact h.unspoken
  · rw [hw, hstate]
    exact h.exit
  · rw [hw, hstate]
    exact h.leaving

/-- Who takes an event is not at the end, so that the session is not over before. -/
theorem take (h : Lived trace s) (hs : s.take? = some s') : Lived (trace ++ [.take]) s' := by
  obtain ⟨hidle, hexit, hcases⟩ := take?_eq_some.mp hs
  -- A session that is over has its farewell in hand, or its dispatcher has stopped.
  have hlive : s.state ≠ .terminated := fun hover => by
    rcases h.leaving hover with ⟨exit, hmem⟩ | hdone
    · rw [hidle] at hmem
      cases hmem
    · rw [hexit] at hdone
      cases hdone
  obtain ⟨hfault, hnone⟩ := h.unspoken hlive
  rw [hidle, toldBy_nil, List.append_nil] at hnone
  have hheard : heard (trace ++ [.take]) = heard trace := by simp [Deed.told?]
  rcases hcases with ⟨e, rest, -, -, rfl⟩ | ⟨-, rfl⟩
  · obtain ⟨hsound, hexact⟩ := sound_targetAfter h.sound h.exact e
    obtain ⟨hfault', hfarewells⟩ := farewells_tasksAfter hfault e
    have hstate : ((s.withEvents rest).handle e).state = (s.targetAfter e).state := by
      rw [state, target_handle, targetAfter_withEvents]
    have hworker : ((s.withEvents rest).handle e).worker.exit = none := by
      rw [handle_eq]
      exact hexit
    refine ⟨?_, ?_, ?_, fun hstill => ⟨?_, ?_⟩, fun exit hmem => ?_, fun hover => .inl ?_, ?_,
      .inl hworker⟩
    · rwa [target_handle, targetAfter_withEvents]
    · rwa [target_handle, targetAfter_withEvents]
    · rw [hheard, agenda_handle, tasksAfter_withEvents]
      -- The farewell is due exactly if this event ends the session, and then it is the last callback.
      by_cases hover : (s.targetAfter e).state = .terminated
      · rw [(tasksAfter_of_ending hlive hover).1]
        exact partsLast_terminate hnone _ _
      · rw [if_neg fun hc => hover hc.1] at hfarewells
        exact partsLast_of_none (by rw [farewells_append, hnone, hfarewells]; rfl)
    · rwa [target_handle, targetAfter_withEvents]
    · rw [hstate] at hstill
      rw [if_neg fun hc => hstill hc.1] at hfarewells
      rw [hheard, agenda_handle, tasksAfter_withEvents, farewells_append, hnone, hfarewells]
      rfl
    · rw [hworker, agenda_handle, tasksAfter_withEvents] at hmem
      obtain ⟨hne, hover, -⟩ := finish_of_tasksAfter (hmem.resolve_right fun hdone => by cases hdone)
      rw [hstate]
      exact ⟨fun he => absurd he hne, fun hc => absurd hover hc⟩
    · rw [hstate] at hover
      rw [agenda_handle, tasksAfter_withEvents]
      exact (tasksAfter_of_ending hlive hover).2
    · rw [agenda_handle, tasksAfter_withEvents]
      exact s.endsLast_tasksAfter e
  · have hdue : farewells (heard (trace ++ [.take]) ++ toldBy (closing .cancelled)) = [] := by
      rw [hheard, toldBy_closing, List.append_nil, hnone]
    refine ⟨h.exact, h.sound, partsLast_of_none hdue, fun _ => ⟨hfault, hdue⟩, fun exit hmem => ?_,
      fun hover => absurd hover hlive,
      (endsLast_closing (fun _ => List.not_mem_nil) .cancelled : EndsLast ([] ++ closing .cancelled)),
      .inl hexit⟩
    -- Whoever closes without an event has one exit.
    obtain rfl : exit = .cancelled := by
      rcases hmem with hmem | hdone
      · simpa [withAgenda, closing] using hmem
      · rw [show (s.withAgenda (closing .cancelled)).worker.exit = none from hexit] at hdone
        cases hdone
    exact iff_of_true rfl hlive

/-- A task that is done is heard, if it tells something, and the last task is the end that was due. -/
theorem perform (h : Lived trace s) {task : Task} (hs : s.perform? = some (task, s')) {deed : Deed}
    (hdeed : deed.told? = task.told?) : Lived (trace ++ [deed]) s' := by
  obtain ⟨rest, hagenda, rfl⟩ := perform?_cases hs
  -- What was heard and what is still to be told are the same list, cut at another place.
  have hdue : heard (trace ++ [deed]) ++ toldBy rest = heard trace ++ toldBy s.worker.agenda := by
    rw [heard_snoc, hdeed, hagenda, toldBy_cons, List.append_assoc]
  have hstate : ((s.withAgenda rest).effect task).state = s.state := by
    rw [state, target_effect]
    rfl
  have hexit := (s.withAgenda rest).exit_effect_eq task
  have hlast := h.last
  rw [hagenda] at hlast
  refine ⟨?_, ?_, ?_, ?_, fun exit hmem => ?_, fun hover => ?_, ?_, ?_⟩
  · rw [target_effect]
    exact h.exact
  · rw [target_effect]
    exact h.sound
  · rw [agenda_effect, agenda_withAgenda, hdue]
    exact h.parts
  · rw [hstate, target_effect, agenda_effect, agenda_withAgenda, hdue]
    exact h.unspoken
  · rw [agenda_effect, agenda_withAgenda, hexit] at hmem
    rw [hstate]
    refine h.exit exit ?_
    rw [hagenda]
    rcases hmem with hmem | hdone
    · exact .inl (List.mem_cons_of_mem _ hmem)
    · split at hdone
      · cases hdone
        exact .inl List.mem_cons_self
      · exact .inr hdone
  · rw [hstate] at hover
    rw [agenda_effect, agenda_withAgenda, hexit]
    rcases h.leaving hover with ⟨exit, hmem⟩ | hdone
    · rw [hagenda] at hmem
      rcases List.mem_cons.mp hmem with rfl | hmem
      · exact .inr rfl
      · exact .inl ⟨exit, hmem⟩
    · split
      · exact .inr rfl
      · exact .inr hdone
  · rw [agenda_effect, agenda_withAgenda]
    exact hlast.tail.1
  · rw [agenda_effect, agenda_withAgenda, hexit]
    split
    · exact .inr (hlast.tail.2 _ rfl)
    · exact .inl (h.done.resolve_right (by rw [hagenda]; exact List.cons_ne_nil _ _))

/-- Client code that fails ends the session, unless it is over; all that is left is the farewell. -/
theorem fail (h : Lived trace s) {task : Task} (hs : s.perform? = some (task, s'))
    (hfatal : isFatal task = true) (message : String) :
    Lived (trace ++ [.failure task message]) (s'.fail message) := by
  have hdone := h.perform hs (show (Deed.failure task message).told? = task.told? from rfl)
  have hagenda : (s'.fail message).worker.agenda =
      lastTasks (s'.target.terminate (some (s'.faultOf message))).1 (s'.faultOf message) := rfl
  have htarget : (s'.fail message).target = (s'.target.terminate (some (s'.faultOf message))).2 := rfl
  have hover : (s'.fail message).state = .terminated := Target.state_terminate _ _
  have htold : toldBy (lastTasks (s'.target.terminate (some (s'.faultOf message))).1
      (s'.faultOf message)) = (s'.target.terminate (some (s'.faultOf message))).1 := by
    simp [lastTasks, toldBy_cons, Task.told?]
  have hworker : (s'.fail message).worker.exit = none := by
    obtain ⟨rest, hbefore, rfl⟩ := perform?_cases hs
    show ((s.withAgenda rest).effect task).worker.exit = none
    rw [exit_effect_eq]
    split
    · cases hfatal
    · exact h.done.resolve_right (by rw [hbefore]; exact List.cons_ne_nil _ _)
  have hnone : ∀ exit, .finish exit ∉ Task.releaseAll ::
      (s'.target.terminate (some (s'.faultOf message))).1.map Task.lastCallback := fun exit => by simp
  refine ⟨?_, ?_, ?_, fun hstill => absurd hover hstill, fun exit hmem => ?_,
    fun _ => .inl ⟨.faulted (s'.faultOf message), ?_⟩, endsLast_closing hnone _, .inl hworker⟩
  · rw [htarget]
    exact (Target.tells_terminate hdone.exact _).exact
  · rw [htarget]
    exact Target.sound_terminate hdone.sound _
  · rw [hagenda, htold]
    -- A target that had ended before tells nothing more; otherwise the farewell is due now, and last.
    by_cases hbefore : s'.target.state = .terminated
    · rw [Target.terminate, if_pos (by simpa [Target.isTerminated] using hbefore), List.append_nil]
      exact hdone.parts.of_append
    · have hnone := (hdone.unspoken hbefore).2
      rw [farewells_append, List.append_eq_nil_iff] at hnone
      exact partsLast_terminate hnone.1 _ _
  · rw [hworker, hagenda] at hmem
    have hmem := (List.mem_append.mp (hmem.resolve_right fun hdone => by cases hdone)).resolve_left (hnone exit)
    obtain rfl : exit = .faulted (s'.faultOf message) := by simpa [closing] using hmem
    exact iff_of_false (by simp) fun hstill => hstill hover
  · rw [hagenda, lastTasks]
    simp [closing]

/-- **Every step keeps the invariant**, whoever makes it and whoever fails in it. -/
theorem step (h : Lived trace s) {deed : Deed} (hs : Proceeds s deed s') :
    Lived (trace ++ [deed]) s' := by
  cases hs with
  | notify n => exact h.outside (.notify s n)
  | abandonPause thread => exact h.outside (.abandonPause s thread)
  | call c => exact h.outside (.call s c)
  | take hs => exact h.take hs
  | perform hs => exact h.perform hs rfl
  | fail hs hfatal message => exact h.fail hs hfatal message

end Lived

theorem lived_of_execution {settings : DebuggerSettings} {trace : List Deed} {s : Session}
    (h : Execution Proceeds (create settings) trace s) : Lived trace s :=
  h.invariant (P := Lived) (lived_create settings) fun _ ih hstep => ih.step hstep

/-! ### What comes after -/

/-- No step takes a session back. -/
theorem stage_le_of_proceeds {s s' : Session} {deed : Deed} (hs : Proceeds s deed s') :
    s.state.stage ≤ s'.state.stage := by
  have houtside (hs : Proceeds s .outside s') : s.state.stage ≤ s'.state.stage :=
    Nat.le_of_eq (congrArg SessionState.stage hs.outside.1.state).symm
  cases hs with
  | notify n => exact houtside (.notify s n)
  | abandonPause thread => exact houtside (.abandonPause s thread)
  | call c => exact houtside (.call s c)
  | take hs =>
      obtain ⟨-, ⟨e, rest, -, rfl⟩ | ⟨-, rfl⟩⟩ := take?_cases hs
      · rw [state, state, target_handle, targetAfter_withEvents]
        exact s.stage_targetAfter e
      · exact Nat.le_refl _
  | perform hs =>
      obtain ⟨rest, -, rfl⟩ := perform?_cases hs
      exact Nat.le_of_eq
        (congrArg (fun t => t.state.stage) (target_effect (s.withAgenda rest) _)).symm
  | @fail s' _ hs hfatal message =>
      have hover : (s'.fail message).state = .terminated := Target.state_terminate _ _
      rw [hover]
      exact s.state.stage_le_terminated

/-- A session that is over stays as it is, but for what is read of its frames. -/
theorem rereads_of_terminated {s s' : Session} {deed : Deed} (hover : s.state = .terminated)
    (hs : Proceeds s deed s') : s.target.Rereads s'.target := by
  have hover' : s.target.state = .terminated := hover
  cases hs with
  | notify n => exact (Proceeds.notify s n).outside.1
  | abandonPause thread => exact (Proceeds.abandonPause s thread).outside.1
  | call c => exact (Proceeds.call s c).outside.1
  | take hs =>
      obtain ⟨-, ⟨e, rest, -, rfl⟩ | ⟨-, rfl⟩⟩ := take?_cases hs
      · rw [target_handle, targetAfter_withEvents, targetAfter_of_terminated hover']
        exact .refl _
      · exact .refl _
  | perform hs =>
      obtain ⟨rest, -, rfl⟩ := perform?_cases hs
      rw [target_effect]
      exact .refl _
  | @fail s' task hs hfatal message =>
      obtain ⟨rest, -, rfl⟩ := perform?_cases hs
      have hsame : ((s.withAgenda rest).effect task).target = s.target := target_effect _ task
      rw [fail, hsame, Target.terminate, if_pos (by simpa [Target.isTerminated] using hover')]
      exact .refl _

/-- Whatever comes after a moment, the session is not taken back, and one that is over stays as it is. -/
theorem after_of_execution {s t : Session} {later : List Deed} (h : Execution Proceeds s later t) :
    s.state.stage ≤ t.state.stage ∧ (s.state = .terminated → s.target.Rereads t.target) := by
  refine h.state_invariant (P := fun t => s.state.stage ≤ t.state.stage ∧
    (s.state = .terminated → s.target.Rereads t.target)) ⟨Nat.le_refl _, fun _ => .refl _⟩ ?_
  intro t deed t' ih hstep
  refine ⟨Nat.le_trans ih.1 (stage_le_of_proceeds hstep), fun hover => ?_⟩
  have hbefore := ih.2 hover
  exact hbefore.trans (rereads_of_terminated (hbefore.state.trans hover) hstep)

/-! ### The main result -/

/-- **A session has one life.** In every run, whatever is reported, called, given up and cancelled, however
far the dispatcher is with it, and wherever client code fails:

* the session never goes back on its way from the start over running to the end;
* a thread that callers see has been heard of, and has ended if and only if the session has;
* once the session is over, its threads, their states, every frame they published, their stacks and the
  fault stay as they are;
* the listener is told at most once that the session is over, and nothing after that;
* a dispatcher that stopped was cancelled if and only if the session is not over. -/
theorem lifecycle_is_safe {settings : DebuggerSettings} {trace : List Deed} {s : Session}
    (h : Execution Proceeds (create settings) trace s) :
    (∀ later t, Execution Proceeds s later t → s.state.stage ≤ t.state.stage) ∧
    (∀ entry ∈ s.view.threads, entry.2 ≠ .notStarted ∧
      (entry.2 = .terminated ↔ s.state = .terminated)) ∧
    (s.state = .terminated → ∀ later t, Execution Proceeds s later t →
      t.view = s.view ∧ (∀ id, t.target.sheetsOf id = s.target.sheetsOf id) ∧
        t.target.fault = s.target.fault) ∧
    ((farewells (heard trace)).length ≤ 1 ∧
      ∀ before fault after, heard trace = before ++ .sessionTerminated fault :: after → after = []) ∧
    ∀ exit, s.exit? = some exit → (exit = .cancelled ↔ s.state ≠ .terminated) := by
  have hl := lived_of_execution h
  have hparts : PartsLast (heard trace) := hl.parts.of_append
  refine ⟨fun later t hlater => (after_of_execution hlater).1, fun entry hentry => ?_,
    fun hover later t hlater => ?_, ⟨hparts.length_farewells_le, fun before fault after he => ?_⟩,
    fun exit hdone => hl.exit exit (.inr hdone)⟩
  · exact hl.sound entry.1 entry.2 (Registry.state_of_mem_entries hl.exact hentry)
  · have hkept := (after_of_execution hlater).2 hover
    have hview : t.target.view = s.target.view := by
      rw [Target.view, Target.view, hkept.entries hl.exact, hkept.state]
    exact ⟨hview, hkept.sheets hl.exact, hkept.fault⟩
  · rw [he] at hparts
    exact hparts.eq_nil_after

/-- A session that the end of the engine has ended. -/
def departed : Session :=
  Nat.repeat stepped 8 (greeted.notify .engineTerminated).2

/-- A session that has ended with a thread still known: the thread is over, the listener heard so last,
and the exit says why. -/
theorem lifecycle_is_safe_to_the_end : ∃ trace, Execution Proceeds (create {}) trace departed ∧
    departed.view = { threads := [(⟨1⟩, .terminated)], state := .terminated } ∧
    departed.exit? = some .engineTerminated ∧ (farewells (heard trace)).length ≤ 1 ∧
    (Exit.engineTerminated = .cancelled ↔ departed.state ≠ .terminated) := by
  obtain ⟨before, hgreeted, -⟩ := execution_greeted
  obtain ⟨last, h, -⟩ := execution_of_stepped (hgreeted.next (.notify _ .engineTerminated)) 8
  obtain ⟨-, -, -, ⟨hfarewells, -⟩, hexit⟩ := lifecycle_is_safe h
  have hdone : departed.exit? = some .engineTerminated := by decide +kernel
  exact ⟨_, h, by decide +kernel, hdone, hfarewells, hexit _ hdone⟩

end Session

end Pausepoint
