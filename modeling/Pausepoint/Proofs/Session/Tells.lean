import Pausepoint.Proofs.Session.Roster

/-!
# Pausepoint.Proofs.Session.Tells

What the callbacks of one event tell.

A listener that only takes its callbacks into account can keep a picture of the session. `Mirror` is
that picture, and `Mirror.hear` how one callback changes it. An event changes the target at once and
leaves callbacks behind; `Target.Tells` says that they tell just what happened:

* the picture of the old target becomes the picture of the new one;
* a callback about the state of a thread is news to the picture, and true of the new target;
* exactly the threads that a callback names have another stack, or one frame more.

There is one lemma per handler, from `tells_scriptReady` to `tells_handleCommand`; those of handlers
that only store another version of a thread come from `tells_setThread`.
-/

namespace Pausepoint

/-! ### A listener's picture -/

/-- What a listener knows of a session. -/
structure Mirror where
  /-- The threads in the order in which they were created, each with its state. -/
  threads : List (ThreadId × ThreadState) := []
  /-- How far the session is. -/
  state : SessionState := .notStarted
  deriving Repr, DecidableEq

namespace Mirror

/-- The picture after a callback. -/
def hear (m : Mirror) : Callback → Mirror
  | .sessionCreated => { m with state := .running }
  | .threadCreated id => { m with threads := m.threads ++ [(id, .notStarted)] }
  | .threadStateChanged id state =>
      { m with threads := m.threads.map fun entry => if entry.1 = id then (id, state) else entry }
  | .stackFramesChanged _ => m
  | .sessionTerminated _ => { m with state := .terminated }

/-- The picture after some callbacks. -/
def hearAll (m : Mirror) (cs : List Callback) : Mirror :=
  cs.foldl hear m

theorem hearAll_append (m : Mirror) (cs ds : List Callback) :
    m.hearAll (cs ++ ds) = (m.hearAll cs).hearAll ds :=
  List.foldl_append

/-- The state of a thread in the picture. -/
def stateOf (m : Mirror) (id : ThreadId) : Option ThreadState :=
  m.threads.lookup id

/-- A change of state is one of the thread it names. -/
theorem stateOf_hear (m : Mirror) (id other : ThreadId) (state : ThreadState) :
    (m.hear (.threadStateChanged id state)).stateOf other =
      if other = id then (m.stateOf id).map fun _ => state else m.stateOf other := by
  obtain ⟨threads, session⟩ := m
  simp only [stateOf, hear]
  induction threads with
  | nil => simp
  | cons entry rest ih =>
      obtain ⟨thread, old⟩ := entry
      by_cases ht : thread = id
      · subst ht
        by_cases ho : other = thread
        · subst ho
          simp
        · simpa [ho, List.lookup_cons, beq_eq_false_iff_ne.mpr ho] using ih
      · by_cases ho : other = thread
        · subst ho
          simp [ht]
        · have hid : (id == thread) = false := beq_eq_false_iff_ne.mpr (Ne.symm ht)
          simpa [ht, List.lookup_cons, beq_eq_false_iff_ne.mpr ho, hid] using ih

/-- Every change of state among some callbacks is news to the picture, and true of the target. -/
def News (t : Target) : Mirror → List Callback → Prop
  | _, [] => True
  | m, c :: rest =>
      (∀ id state, c = .threadStateChanged id state →
        (∃ previous, m.stateOf id = some previous ∧ previous ≠ state) ∧ t.stateOf id = some state) ∧
      News t (m.hear c) rest

/-- What is true of a target stays true of one that shows the same. -/
theorem News.of_stateOf {t t' : Target} (h : ∀ id, t'.stateOf id = t.stateOf id) {m : Mirror}
    {cs : List Callback} (hn : m.News t cs) : m.News t' cs := by
  induction cs generalizing m with
  | nil => trivial
  | cons c rest ih =>
      refine ⟨fun id state hc => ?_, ih hn.2⟩
      rw [h]
      exact hn.1 id state hc

end Mirror

/-! ### What an event tells of the target -/

namespace Target

/-- The picture of a target itself. -/
def view (t : Target) : Mirror :=
  { threads := t.registry.entries, state := t.state }

theorem stateOf_view {t : Target} (hr : t.registry.Exact) (id : ThreadId) :
    t.view.stateOf id = t.stateOf id :=
  Registry.lookup_entries hr id

/-- From one target to another some callbacks tell what happened, and nothing else. -/
structure Tells (t t' : Target) (cs : List Callback) : Prop where
  exact : t'.registry.Exact
  view : t.view.hearAll cs = t'.view
  news : t.view.News t' cs
  /-- Exactly the stacks that the callbacks name are other ones. -/
  stacked : ∀ id, (.stackFramesChanged id ∈ cs → Restacked (t.sheetsOf id) (t'.sheetsOf id)) ∧
    (.stackFramesChanged id ∉ cs → t'.sheetsOf id = t.sheetsOf id)

variable {t : Target}

theorem Tells.refl (hr : t.registry.Exact) : t.Tells t [] :=
  ⟨hr, rfl, trivial, fun _ => ⟨nofun, fun _ => rfl⟩⟩

/-- **A new version of a thread** is told by what is different in it. -/
theorem tells_setThread (hr : t.registry.Exact) {id : ThreadId} {before next : DebugThread}
    (h : t.thread? id = some before) (hid : next.id = id) (restacked : Bool)
    (hsheets : if restacked then Restacked before.sheets next.sheets else next.sheets = before.sheets) :
    t.Tells (t.setThread next)
      ((if restacked then [.stackFramesChanged id] else []) ++
        if next.state = before.state then [] else [.threadStateChanged id next.state]) := by
  subst hid
  have hm := moves_setThread hr.indexed next h
  -- A picture that hears of the state shows it, whether it did before or not.
  have hview : (t.setThread next).view = t.view.hear (.threadStateChanged next.id next.state) := by
    simp only [view, Mirror.hear]
    rw [show (t.setThread next).registry.entries = _ from Registry.entries_update hr next]
    rfl
  have hheard : ∀ m : Mirror,
      m.hearAll (if restacked then [.stackFramesChanged next.id] else []) = m := by
    intro m
    cases restacked <;> rfl
  refine ⟨Registry.exact_update hr next.id fun _ _ => rfl, ?_, ?_, fun other => ?_⟩
  · rw [Mirror.hearAll_append, hheard]
    split
    · next hsame =>
        simp only [view]
        rw [show (t.setThread next).registry.entries = t.registry.entries from
          Registry.entries_update_same hr (by
            rw [show t.registry.get? next.id = some before from h, hsame]; rfl)]
        rfl
    · exact hview.symm
  · have hnews : t.view.News (t.setThread next)
        (if next.state = before.state then [] else [.threadStateChanged next.id next.state]) := by
      split
      · trivial
      · next hne =>
          refine ⟨fun id state hc => ?_, trivial⟩
          obtain ⟨rfl, rfl⟩ : next.id = id ∧ next.state = state := by simpa using hc
          refine ⟨⟨before.state, ?_, Ne.symm hne⟩, hm.stateOf_self⟩
          rw [stateOf_view hr, stateOf, h]
          rfl
    cases restacked with
    | false => exact hnews
    | true => exact ⟨fun _ _ hc => by (cases hc), hnews⟩
  · have hself : t.sheetsOf next.id = before.sheets := sheetsOf_of_thread h
    have hnext : (t.setThread next).sheetsOf next.id = next.sheets := sheetsOf_of_thread hm.self
    have hmem : Callback.stackFramesChanged other ∈
        ((if restacked then [.stackFramesChanged next.id] else []) ++
          if next.state = before.state then [] else [.threadStateChanged next.id next.state]) ↔
        restacked = true ∧ other = next.id := by
      cases restacked <;> by_cases hs : next.state = before.state <;> simp [hs]
    rw [hmem]
    by_cases he : other = next.id
    · subst he
      rw [hself, hnext]
      cases restacked with
      | true => exact ⟨fun _ => hsheets, fun hn => (hn ⟨rfl, rfl⟩).elim⟩
      | false => exact ⟨fun hc => Bool.noConfusion hc.1, fun _ => hsheets⟩
    · exact ⟨fun hc => absurd hc.2 he, fun _ => hm.sheetsOf_of_ne he⟩

/-- A thread that is heard of for the first time has no stack. -/
theorem sheetsOf_contact (hr : t.registry.Exact) (id other : ThreadId) :
    ({ t with registry := (t.registry.contact id).2 } : Target).sheetsOf other = t.sheetsOf other := by
  have hget := Registry.get?_contact hr.indexed id other
  unfold sheetsOf thread?
  rw [hget]
  split
  · next he =>
      subst he
      cases t.registry.get? other <;> rfl
  · rfl

/-- It is told of first. -/
theorem Tells.after_contact (hr : t.registry.Exact) (id : ThreadId) {t' : Target}
    {cs : List Callback}
    (h : ({ t with registry := (t.registry.contact id).2 } : Target).Tells t' cs) :
    t.Tells t' ((if (t.registry.contact id).1 then [.threadCreated id] else []) ++ cs) := by
  have hview : t.view.hearAll (if (t.registry.contact id).1 then [.threadCreated id] else []) =
      ({ t with registry := (t.registry.contact id).2 } : Target).view := by
    simp only [Target.view, Registry.entries_contact]
    split <;> rfl
  refine ⟨h.exact, ?_, ?_, fun other => ?_⟩
  · rw [Mirror.hearAll_append, hview]
    exact h.view
  · have hnews := h.news
    rw [← hview] at hnews
    split at hnews
    · next hnew =>
        rw [if_pos hnew]
        exact ⟨nofun, hnews⟩
    · next hnew =>
        rw [if_neg hnew]
        exact hnews
  · have hmem : Callback.stackFramesChanged other ∈
        ((if (t.registry.contact id).1 then [.threadCreated id] else []) ++ cs) ↔
        .stackFramesChanged other ∈ cs := by
      split <;> simp
    rw [hmem, ← sheetsOf_contact hr id other]
    exact h.stacked other

/-! ### The handlers -/

/-- A transition of a thread by itself. -/
theorem exists_of_transition {id : ThreadId} {f : DebugThread → Except Refusal DebugThread}
    {next : DebugThread} (h : t.transition? id f = some next) :
    ∃ before, t.thread? id = some before ∧ f before = .ok next := by
  obtain ⟨before, hbefore, hnext⟩ := Option.bind_eq_some_iff.mp h
  refine ⟨before, hbefore, ?_⟩
  cases hf : f before with
  | error cause =>
      rw [hf] at hnext
      cases hnext
  | ok thread =>
      rw [hf] at hnext
      exact congrArg Except.ok (Option.some.inj hnext)

end Target

namespace DebugThread

/-- Who is suspended was not before. -/
theorem suspend_cases {t next : DebugThread} {reason : Reason} (h : t.suspend reason = .ok next) :
    next.id = t.id ∧ next.state = .suspended ∧ t.state ≠ .suspended ∧ next.sheets = t.sheets := by
  unfold suspend at h
  split at h <;> cases h <;> exact ⟨rfl, rfl, by simp [*], rfl⟩

theorem applyResume_cases {t next : DebugThread} {mode : Mode} (h : t.applyResume mode = .ok next) :
    next.id = t.id ∧ next.state ≠ t.state ∧ next.sheets = t.sheets := by
  unfold applyResume at h
  split at h
  · next hs =>
      cases h
      refine ⟨rfl, ?_, rfl⟩
      rw [hs]
      cases mode <;> simp [Mode.resultingState, Mode.isStep]
  · cases h

theorem noteResumed_cases {t next : DebugThread} {mode : Mode} (h : t.noteResumed mode = .ok next) :
    next.id = t.id ∧ next.sheets = t.sheets := by
  unfold noteResumed at h
  split at h <;> cases h <;> exact ⟨rfl, rfl⟩

theorem replaceFrames_cases {t next : DebugThread} {frames : List Frame}
    (h : t.replaceFrames frames = .ok next) : next.id = t.id ∧ next.state = t.state := by
  unfold replaceFrames at h
  split at h <;> cases h
  exact ⟨rfl, rfl⟩

theorem pushFrame_cases {t next : DebugThread} {frame : Frame}
    (h : t.pushFrame frame = .ok next) : next.id = t.id ∧ next.state = t.state := by
  unfold pushFrame at h
  split at h <;> cases h
  exact ⟨rfl, rfl⟩

end DebugThread

namespace Target

variable {t : Target}

theorem tells_scriptReady (hr : t.registry.Exact) (store : BreakpointStore) (id : ThreadId)
    (script : Snapshot) (root : Bool) :
    t.Tells (t.scriptReady store id script root).2 (t.scriptReady store id script root).1.callbacks := by
  have hr' := Registry.exact_contact hr id
  unfold scriptReady
  dsimp only
  split
  · next thread htrans =>
      obtain ⟨before, hbefore, hsuspend⟩ := exists_of_transition htrans
      obtain ⟨hid, hstate, hne, hsheets⟩ := DebugThread.suspend_cases hsuspend
      have hthread : thread.id = id := hid.trans (id_of_thread? hr'.indexed hbefore)
      have hchanged : thread.state ≠ before.state := by
        rw [hstate]
        exact Ne.symm hne
      have hplain := tells_setThread hr' hbefore hthread false hsheets
      rw [if_neg hchanged] at hplain
      split
      · split
        · next pushed hpush =>
            obtain ⟨hid', hstate'⟩ := DebugThread.pushFrame_cases hpush
            have htells := tells_setThread hr' hbefore (hid'.trans hthread) true
              (hsheets ▸ DebugThread.restacked_pushFrame hpush)
            rw [hstate', if_neg hchanged] at htells
            have := htells.after_contact hr id
            simpa only [List.append_assoc, if_true] using this
        · exact hplain.after_contact hr id
      · exact hplain.after_contact hr id
  · have hnone := (Tells.refl hr').after_contact hr id
    rwa [List.append_nil] at hnone

theorem tells_stackFrames (hr : t.registry.Exact) (id : ThreadId) (frames : List Frame) :
    t.Tells (t.stackFrames id frames).2 (t.stackFrames id frames).1.callbacks := by
  unfold stackFrames
  split
  · next thread htrans =>
      obtain ⟨before, hbefore, hframes⟩ := exists_of_transition htrans
      obtain ⟨hid, hstate⟩ := DebugThread.replaceFrames_cases hframes
      have htells := tells_setThread hr hbefore (hid.trans (id_of_thread? hr.indexed hbefore)) true
        (DebugThread.restacked_replaceFrames hframes)
      rwa [if_pos hstate] at htells
  · exact .refl hr

theorem tells_suspended (hr : t.registry.Exact) (id : ThreadId) (frames : List Frame) (reason : Reason) :
    t.Tells (t.suspended id frames reason).2 (t.suspended id frames reason).1.callbacks := by
  unfold suspended
  split
  · next thread htrans =>
      obtain ⟨before, hbefore, hsuspend⟩ := exists_of_transition htrans
      obtain ⟨hid, hstate, hne, hsheets⟩ := DebugThread.suspend_cases hsuspend
      have hthread : thread.id = id := hid.trans (id_of_thread? hr.indexed hbefore)
      have hchanged : thread.state ≠ before.state := by
        rw [hstate]
        exact Ne.symm hne
      dsimp only
      split
      · next replaced hframes =>
          obtain ⟨hid', hstate'⟩ := DebugThread.replaceFrames_cases hframes
          have htells := tells_setThread hr hbefore (hid'.trans hthread) true
            (hsheets ▸ DebugThread.restacked_replaceFrames hframes)
          rwa [hstate', if_neg hchanged] at htells
      · have htells := tells_setThread hr hbefore hthread false hsheets
        rwa [if_neg hchanged] at htells
  · exact .refl hr

theorem tells_resumed (hr : t.registry.Exact) (id : ThreadId) (mode : Mode) :
    t.Tells (t.resumed id mode).2 (t.resumed id mode).1.callbacks := by
  unfold resumed
  split
  · exact .refl hr
  · next before hbefore =>
      split
      · exact .refl hr
      · next thread hresumed =>
          obtain ⟨hid, hsheets⟩ := DebugThread.noteResumed_cases hresumed
          exact tells_setThread hr hbefore (hid.trans (id_of_thread? hr.indexed hbefore)) false hsheets

/-- All threads that are told of have ended. -/
theorem hearAll_terminated (m : Mirror) (ids : List ThreadId) :
    m.hearAll (ids.map fun id => .threadStateChanged id .terminated) =
      { m with threads := m.threads.map fun entry =>
        if entry.1 ∈ ids then (entry.1, .terminated) else entry } := by
  induction ids generalizing m with
  | nil => simp [Mirror.hearAll]
  | cons id rest ih =>
      show (m.hear _).hearAll _ = _
      rw [ih]
      simp only [Mirror.hear, List.map_map, Mirror.mk.injEq, and_true]
      refine List.map_congr_left fun entry _ => ?_
      by_cases he : entry.1 = id
      · simp [he]
      · simp [he]

/-- It is news of each of them that it has ended. -/
theorem news_terminated {t' : Target} {m : Mirror} {ids : List ThreadId} (hd : ids.Nodup)
    (hprevious : ∀ id ∈ ids, ∃ previous, m.stateOf id = some previous ∧ previous ≠ .terminated)
    (hended : ∀ id ∈ ids, t'.stateOf id = some .terminated) (fault : Option Fault) :
    m.News t' (ids.map (fun id => .threadStateChanged id .terminated) ++ [.sessionTerminated fault]) := by
  induction ids generalizing m with
  | nil => exact ⟨nofun, trivial⟩
  | cons id rest ih =>
      obtain ⟨hid, hrest⟩ := List.nodup_cons.mp hd
      refine ⟨fun other state hc => ?_, ih hrest (fun other hmem => ?_) fun other hmem =>
        hended other (List.mem_cons_of_mem _ hmem)⟩
      · obtain ⟨rfl, rfl⟩ : id = other ∧ ThreadState.terminated = state := by simpa using hc
        exact ⟨hprevious id List.mem_cons_self, hended id List.mem_cons_self⟩
      · -- Every thread is told of once, so that the others are pictured as before.
        have hne : other ≠ id := fun he => hid (he ▸ hmem)
        rw [Mirror.stateOf_hear, if_neg hne]
        exact hprevious other (List.mem_cons_of_mem _ hmem)

/-- The end of a session leaves stacks alone. -/
theorem stackFramesChanged_not_mem_terminate (t : Target) (fault : Option Fault) (id : ThreadId) :
    .stackFramesChanged id ∉ (t.terminate fault).1 := by
  unfold terminate
  split <;> simp

theorem tells_terminate (hr : t.registry.Exact) (fault : Option Fault) :
    t.Tells (t.terminate fault).2 (t.terminate fault).1 := by
  unfold terminate
  split
  · exact .refl hr
  · have hexact := Registry.exact_terminateAll hr
    have hids : t.registry.terminateAll.1 =
        (t.registry.entries.filter fun entry => entry.2 ≠ .terminated).map Prod.fst := by
      simp [Registry.terminateAll, Registry.entries, List.filter_map, Function.comp_def]
    have hnodup : (t.registry.entries.map Prod.fst).Nodup := Registry.nodup_entries hr
    refine ⟨hexact, ?_, ?_, fun id => ⟨fun hmem => ?_, fun _ => ?_⟩⟩
    · show t.view.hearAll _ = _
      rw [Mirror.hearAll_append, hearAll_terminated]
      simp only [view, Mirror.hearAll, List.foldl_cons, List.foldl_nil, Mirror.hear,
        Registry.entries_terminateAll, Mirror.mk.injEq, and_true]
      -- A thread that nothing is told of had ended before.
      refine List.map_congr_left fun entry hentry => ?_
      split
      · rfl
      · next hnot =>
          refine Prod.ext rfl (Decidable.byContradiction fun hne => hnot ?_)
          rw [hids]
          exact List.mem_map_of_mem (List.mem_filter.mpr ⟨hentry, by simpa using hne⟩)
    · refine news_terminated ?_ (fun id hid => ?_) (fun id hid => ?_) fault
      · rw [hids]
        exact hnodup.sublist (List.filter_sublist.map _)
      · rw [hids] at hid
        obtain ⟨entry, hentry, rfl⟩ := List.mem_map.mp hid
        obtain ⟨hmem, hne⟩ := List.mem_filter.mp hentry
        exact ⟨entry.2, (stateOf_view hr _).trans (Registry.state_of_mem_entries hr hmem), by simpa using hne⟩
      · rw [hids] at hid
        obtain ⟨entry, hentry, rfl⟩ := List.mem_map.mp hid
        have hstate := Registry.state_of_mem_entries hr (List.mem_filter.mp hentry).1
        obtain ⟨thread, hthread, -⟩ := Option.map_eq_some_iff.mp hstate
        show (t.registry.terminateAll.2.get? entry.1).map DebugThread.state = _
        rw [Registry.get?_terminateAll, hthread]
        rfl
    · simp at hmem
    · show ((t.registry.terminateAll.2.get? id).map DebugThread.sheets).getD _ = _
      rw [Registry.get?_terminateAll, Option.map_map]
      rfl

/-- **What a report tells.** -/
theorem tells_handleNotification (hr : t.registry.Exact) (store : BreakpointStore) (n : Notification) :
    t.Tells (t.handleNotification store n).2 (t.handleNotification store n).1.callbacks := by
  unfold handleNotification
  split
  · exact .refl hr
  · exact ⟨hr, rfl, ⟨nofun, trivial⟩, fun _ => ⟨by simp, fun _ => rfl⟩⟩
  · exact .refl hr
  · exact tells_terminate hr none
  · exact .refl hr
  · exact tells_scriptReady hr store _ _ _
  · exact tells_stackFrames hr _ _
  · exact tells_suspended hr _ _ _
  · exact tells_resumed hr _ _

/-- **What a command tells.** -/
theorem tells_handleCommand (hr : t.registry.Exact) (c : Command) :
    t.Tells (t.handleCommand c).2 (t.handleCommand c).1.callbacks := by
  unfold handleCommand
  split
  · exact .refl hr
  · cases c with
    | resume id mode =>
        dsimp only
        split
        · next thread htrans =>
            obtain ⟨before, hbefore, hresume⟩ := exists_of_transition htrans
            obtain ⟨hid, hne, hsheets⟩ := DebugThread.applyResume_cases hresume
            have htells := tells_setThread hr hbefore
              (hid.trans (id_of_thread? hr.indexed hbefore)) false hsheets
            rwa [if_neg hne] at htells
        · exact .refl hr
    | disconnect => exact tells_terminate hr none
    | terminate | setBreakpoint => exact .refl hr

end Target

end Pausepoint
