import Pausepoint.Proofs.Session.Agreement
import Pausepoint.Proofs.Session.Tells

/-!
# Pausepoint.Proofs.Session.Reports

What a report does to a target that does not expect it.

`Target.moves_of_finds` speaks of reports that find their thread as they should. An interpreter that
gives up on a pause, or a script that was asked to end, reports what nobody expects any more: a second
pause of a thread that is still suspended here, or that a thread goes on which was never let go. Such a
report is dropped or followed, but in either case

* it changes its own thread at most (`Target.report_cases`, `Target.report_other`);
* it leaves a thread that was heard of in the state it says (`Target.stateOf_report`).

The first is said of commands that end nothing, too (`Target.command_other`).
-/

namespace Pausepoint

namespace Target

variable {t : Target} {id : ThreadId}

/-! ### First contact -/

/-- First contact leaves the thread that is there, or a new one. -/
theorem thread?_contact (hr : t.registry.Indexed) (id : ThreadId) :
    thread? { t with registry := (t.registry.contact id).2 } id = some ((t.thread? id).getD { id }) := by
  have hget := Registry.get?_contact hr id id
  rwa [if_pos rfl] at hget

/-- A thread is new exactly if it was not there. -/
theorem contact_new (hr : t.registry.Indexed) (id : ThreadId) :
    (t.registry.contact id).1 = (t.thread? id).isNone := by
  unfold Registry.contact thread? Registry.get?
  cases hslot : t.registry.index.get? id with
  | none => rfl
  | some slot =>
      obtain ⟨thread, hthread, -⟩ := hr id slot hslot
      simp [hthread]

/-- Contact with a thread that is there changes nothing. -/
theorem contact_known (hr : t.registry.Indexed) (h : t.thread? id ≠ none) :
    t.registry.contact id = (false, t.registry) := by
  have hnew := contact_new hr id
  rw [Option.isNone_eq_false_iff.mpr (Option.isSome_iff_ne_none.mpr h)] at hnew
  unfold Registry.contact at hnew ⊢
  split
  · rfl
  · next hslot => simp [hslot] at hnew

/-! ### A report changes its own thread -/

theorem scriptReady_cases (hr : t.registry.Indexed) (store : BreakpointStore) (id : ThreadId)
    (script : Snapshot) (root : Bool) : (t.scriptReady store id script root).2 = t ∨
      ∃ next, t.Moves (t.scriptReady store id script root).2 id next := by
  unfold scriptReady
  dsimp only
  split
  · next thread htrans =>
      obtain ⟨before, hbefore, hsuspend⟩ := exists_of_transition htrans
      obtain ⟨hsame, -, -, -⟩ := DebugThread.suspend_cases hsuspend
      obtain rfl : thread.id = id :=
        hsame.trans (id_of_thread? (Registry.indexed_contact hr id) hbefore)
      right
      split
      · split
        · next pushed hpush =>
            obtain ⟨hpushed, -⟩ := DebugThread.pushFrame_cases hpush
            have hm := moves_setThread_contact hr pushed
            rw [hpushed] at hm
            exact ⟨pushed, hm⟩
        · exact ⟨thread, moves_setThread_contact hr thread⟩
      · exact ⟨thread, moves_setThread_contact hr thread⟩
  · next htrans =>
      have hknown : t.thread? id ≠ none := by
        intro hnone
        have hthread := thread?_contact hr id
        rw [hnone] at hthread
        simp [transition?, hthread, DebugThread.suspend, Except.toOption] at htrans
      left
      rw [contact_known hr hknown]

/-- A thread that makes a transition is stored in its place. -/
theorem moves_of_transition (hr : t.registry.Indexed) {before next : DebugThread}
    (hbefore : t.thread? id = some before) (hid : next.id = before.id) :
    t.Moves (t.setThread next) id next := by
  have hsame : next.id = id := hid.trans (id_of_thread? hr hbefore)
  subst hsame
  exact moves_setThread hr next hbefore

/-- Before the engine has started, a report about a thread is dropped. -/
theorem handleNotification_of_notStarted (hs : t.state = .notStarted) (store : BreakpointStore)
    {n : Notification} (hid : n.thread? = some id) : t.handleNotification store n = ({}, t) := by
  cases n <;> simp_all [handleNotification, Notification.thread?]

/-- **A report about a thread changes this thread at most**, whether it makes sense or not. -/
theorem report_cases (hr : t.registry.Indexed) (store : BreakpointStore) {n : Notification}
    (hid : n.thread? = some id) : (t.handleNotification store n).2 = t ∨
      ∃ next, t.Moves (t.handleNotification store n).2 id next := by
  cases hs : t.state with
  | terminated => exact .inl (handleNotification_of_terminated hs store n)
  | notStarted => exact .inl (by rw [handleNotification_of_notStarted hs store hid])
  | running =>
      -- In a session that runs, the thread makes its transition, or the report is dropped.
      cases n with
      | engineStarted | engineTerminated => cases hid
      | scriptReady thread script root =>
          obtain rfl := Option.some.inj hid
          simpa only [handleNotification, hs] using scriptReady_cases hr store thread script root
      | stackFrames thread frames =>
          obtain rfl := Option.some.inj hid
          simp only [handleNotification, hs, stackFrames]
          split
          · next next htrans =>
              obtain ⟨before, hbefore, hframes⟩ := exists_of_transition htrans
              exact .inr ⟨next, moves_of_transition hr hbefore (DebugThread.replaceFrames_cases hframes).1⟩
          · exact .inl rfl
      | suspended thread frames reason =>
          obtain rfl := Option.some.inj hid
          simp only [handleNotification, hs, suspended]
          split
          · next next htrans =>
              obtain ⟨before, hbefore, hsuspend⟩ := exists_of_transition htrans
              have hnext := (DebugThread.suspend_cases hsuspend).1
              right
              split
              · next shown hframes =>
                  have hshown := (DebugThread.replaceFrames_cases hframes).1
                  exact ⟨shown, moves_of_transition hr hbefore (hshown.trans hnext)⟩
              · exact ⟨next, moves_of_transition hr hbefore hnext⟩
          · exact .inl rfl
      | resumed thread mode =>
          obtain rfl := Option.some.inj hid
          simp only [handleNotification, hs, resumed]
          split
          · exact .inl rfl
          · next before hbefore =>
              split
              · exact .inl rfl
              · next next hresumed =>
                  exact .inr ⟨next, moves_of_transition hr hbefore (DebugThread.noteResumed_cases hresumed).1⟩

/-- It leaves the other threads and how far the session is. -/
theorem report_frame (hr : t.registry.Indexed) (store : BreakpointStore) {n : Notification}
    (hid : n.thread? = some id) : (t.handleNotification store n).2.registry.Indexed ∧
      (t.handleNotification store n).2.state = t.state ∧
      ∀ other, other ≠ id → (t.handleNotification store n).2.thread? other = t.thread? other := by
  rcases report_cases hr store hid with hsame | ⟨next, hm⟩
  · rw [hsame]
    exact ⟨hr, rfl, fun _ _ => rfl⟩
  · exact ⟨hm.indexed, hm.state, hm.others⟩

/-- Whatever is reported about others, a thread stays as it is while the session goes on. -/
theorem report_other (hr : t.registry.Indexed) (store : BreakpointStore) {n : Notification}
    (hid : n.thread? ≠ some id) (hstill : (t.handleNotification store n).2.state ≠ .terminated) :
    (t.handleNotification store n).2.registry.Indexed ∧
      (t.state = .running → (t.handleNotification store n).2.state = .running) ∧
      (t.handleNotification store n).2.thread? id = t.thread? id := by
  cases hother : n.thread? with
  | some other =>
      obtain ⟨hindexed, hstate, hothers⟩ := report_frame hr store hother
      exact ⟨hindexed, hstate.trans, hothers id fun he => hid (he ▸ hother)⟩
  | none =>
      by_cases hn : n = .engineTerminated
      · subst hn
        exact absurd (state_handleNotification_engineTerminated t store) hstill
      · obtain rfl := n.eq_engineStarted hother hn
        have hlive : t.state ≠ .terminated := fun hs =>
          hstill ((congrArg Target.state (handleNotification_of_terminated hs store _)).trans hs)
        obtain ⟨hsame, hrun⟩ := handleNotification_engineStarted hlive store
        rw [thread?, thread?, hsame]
        exact ⟨hr, fun _ => hrun, rfl⟩

/-- A command that ends nothing changes at most the thread that it lets go on. -/
theorem command_other (hr : t.registry.Indexed) {c : Command} (hc : c ≠ .disconnect) :
    (t.handleCommand c).2.registry.Indexed ∧ (t.handleCommand c).2.state = t.state ∧
      ∀ id, (∀ mode, c ≠ .resume id mode) → (t.handleCommand c).2.thread? id = t.thread? id := by
  unfold handleCommand
  split
  · exact ⟨hr, rfl, fun _ _ => rfl⟩
  · cases c with
    | disconnect => exact absurd rfl hc
    | terminate | setBreakpoint => exact ⟨hr, rfl, fun _ _ => rfl⟩
    | resume other mode =>
        dsimp only
        split
        · next next htrans =>
            obtain ⟨before, hbefore, happly⟩ := exists_of_transition htrans
            have hm := moves_of_transition hr hbefore (DebugThread.applyResume_cases happly).1
            exact ⟨hm.indexed, hm.state, fun id hne => hm.others id fun he => hne mode (he ▸ rfl)⟩
        · exact ⟨hr, rfl, fun _ _ => rfl⟩

/-! ### A report leads its thread where it says -/

/-- A pause that finds its thread suspended already changes nothing. -/
theorem report_of_suspended (hr : t.registry.Indexed) (hrun : t.state = .running)
    (store : BreakpointStore) {n : Notification} (hid : n.thread? = some id) (hp : n.isPause = true)
    (h : t.stateOf id = some .suspended) : (t.handleNotification store n).2 = t := by
  obtain ⟨thread, hthread, hstate⟩ := exists_thread_of_stateOf h
  cases n with
  | engineStarted | engineTerminated | stackFrames | resumed => cases hp
  | scriptReady other script root =>
      obtain rfl := Option.some.inj hid
      have hknown := contact_known hr (show t.thread? other ≠ none by simp [hthread])
      have htrans : t.transition? other (DebugThread.suspend · .scriptLoaded) = none := by
        simp [transition?, hthread, DebugThread.suspend, hstate, Except.toOption]
      rw [show t.handleNotification store (.scriptReady other script root) =
        t.scriptReady store other script root by simp only [handleNotification, hrun]]
      simp only [scriptReady, hknown, htrans]
  | suspended other frames reason =>
      obtain rfl := Option.some.inj hid
      simp [handleNotification, hrun, suspended, transition?, hthread, DebugThread.suspend, hstate,
        Except.toOption]

/-- **A report leaves its thread in the state it says**, if the thread is there or is announced by it. -/
theorem stateOf_report (hr : t.registry.Indexed) (hrun : t.state = .running) (store : BreakpointStore)
    {n : Notification} (hid : n.thread? = some id) (hactive : ∀ s ∈ t.stateOf id, s.IsActive)
    (hthere : Gate.announces n = true ∨ t.stateOf id ≠ none) :
    (t.handleNotification store n).2.stateOf id = n.leads (t.stateOf id) := by
  by_cases hfinds : n.Finds (t.stateOf id)
  · obtain ⟨next, hm, hnext, -⟩ := moves_of_finds hr hrun store hid hfinds
    rw [hm.stateOf_self, hnext]
  -- A known thread that does not make the transition is suspended: it refuses the pause, or goes on by itself.
  · have hsuspended : t.stateOf id = some .suspended := by
      cases hs : t.stateOf id with
      | none =>
          rw [hs] at hthere hfinds
          cases n <;> simp_all [Notification.Finds, Gate.announces]
      | some s =>
          rcases hactive s hs with rfl | hruns
          · rfl
          · rw [hs] at hfinds
            cases n <;> simp_all [Notification.Finds]
    obtain ⟨thread, hthread, hstate⟩ := exists_thread_of_stateOf hsuspended
    cases hp : n.isPause with
    | true => rw [report_of_suspended hr hrun store hid hp hsuspended, n.leads_of_pause hp, hsuspended]
    | false =>
        cases n with
        | scriptReady | suspended => cases hp
        | engineStarted | engineTerminated => cases hid
        | stackFrames other frames =>
            obtain rfl := Option.some.inj hid
            obtain ⟨next, hframes, hsame, hnext, -⟩ := DebugThread.replaceFrames_of_ne
              (t := thread) (by simp [hstate]) (t.shown frames)
            have hm := moves_of_transition hr hthread hsame
            have htrans : t.transition? other (DebugThread.replaceFrames · (t.shown frames)) = some next := by
              simp [transition?, hthread, hframes, Except.toOption]
            simp only [handleNotification, hrun, stackFrames, htrans]
            rw [hm.stateOf_self, hnext, hstate, hsuspended]
            rfl
        | resumed other mode =>
            obtain rfl := Option.some.inj hid
            have hresumed : thread.noteResumed mode =
                .ok { thread with state := mode.resultingState, lastResume := some mode } := by
              simp [DebugThread.noteResumed, hstate]
            have hm : t.Moves (t.setThread
                { thread with state := mode.resultingState, lastResume := some mode }) other _ :=
              moves_of_transition hr hthread rfl
            simp only [handleNotification, hrun, resumed, hthread, hresumed]
            rw [hm.stateOf_self]
            rfl

end Target

end Pausepoint
