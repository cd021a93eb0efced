import Pausepoint.Proofs.Session.Reports

/-!
# Pausepoint.Proofs.Session.Matching

Targets that show the same.

A target keeps more of its threads than it shows: every frame that was ever published, what was read of
it, and how a thread last went on. Two targets *match* if they differ in nothing else. Whatever is handled
by both of them has the same effects and leaves them matching, and what is asked of them has the same
answer.

* `DebugThread.Carries` — the frames of a stack, all of them published;
* `DebugThread.Matches`, `Registry.Matches`, `Target.Matches` — the relation;
* `Target.Matches.handleNotification`, `Target.Matches.handleCommand` — both do the same;
* `Target.matches_setThread` — what a version of a thread that shows the same makes of a target.
-/

namespace Pausepoint

/-! ### Threads -/

namespace DebugThread

variable {t u v : DebugThread} {shown : List Frame}

/-- The stack of a thread is made of these frames. -/
def Carries (t : DebugThread) (frames : List Frame) : Prop :=
  t.sheets.2.map (fun slot => t.sheets.1[slot]?) = frames.map some

/-- The frames of a stack are looked up among those that were published. -/
theorem frames_eq_sheets (t : DebugThread) :
    t.frames = (t.sheets.2.map fun slot => t.sheets.1[slot]?).filterMap fun frame => frame := by
  rw [List.filterMap_map]
  refine congrArg (t.stack.filterMap ·) (funext fun slot => ?_)
  simp [sheets]

theorem Carries.frames (h : t.Carries shown) : t.frames = shown := by
  rw [frames_eq_sheets, h, List.filterMap_map]
  exact List.filterMap_some

theorem Carries.of_sheets (h : t.Carries shown) (hs : u.sheets = t.sheets) : u.Carries shown := by
  rw [Carries, hs]
  exact h

/-- A thread that was never heard of carries nothing. -/
theorem carries_new (id : ThreadId) : Carries { id } [] := rfl

/-- Frames that are published come on top of those that stay. -/
theorem carries_publish (t : DebugThread) (frames : List Frame) {below : List Nat} {rest : List Frame}
    (h : below.map (fun slot => t.sheets.1[slot]?) = rest.map some) :
    (t.markStackDirty.publish frames below).Carries (frames ++ rest) := by
  rw [Carries, t.sheets_publish, List.map_append, List.map_append]
  congr 1
  · rw [List.map_map]
    refine List.ext_getElem? fun place => ?_
    by_cases hplace : place < frames.length <;> simp [hplace]
  · rw [← h]
    refine List.map_congr_left fun slot hslot => ?_
    have hmem : t.sheets.1[slot]? ∈ rest.map some := h ▸ List.mem_map_of_mem hslot
    obtain ⟨frame, -, hframe⟩ := List.mem_map.mp hmem
    exact List.getElem?_append_left (List.getElem?_eq_some_iff.mp hframe.symm).1

theorem carries_replaceFrames {next : DebugThread} (h : t.replaceFrames shown = .ok next) :
    next.Carries shown := by
  unfold replaceFrames at h
  split at h
  · cases h
  · obtain rfl := Except.ok.inj h
    have hc := t.carries_publish shown (show [].map (fun slot : Nat => t.sheets.1[slot]?) = [].map some from rfl)
    rwa [List.append_nil] at hc

theorem Carries.pushFrame {next : DebugThread} {frame : Frame} (hc : t.Carries shown)
    (h : t.pushFrame frame = .ok next) : next.Carries (frame :: shown) := by
  unfold DebugThread.pushFrame at h
  split at h
  · cases h
  · obtain rfl := Except.ok.inj h
    exact t.carries_publish [frame] hc

/-- Two versions of a thread that show the same: what it is doing, and its stack. -/
structure Matches (t u : DebugThread) : Prop where
  id : u.id = t.id
  state : u.state = t.state
  stack : ∃ frames, t.Carries frames ∧ u.Carries frames

namespace Matches

theorem symm (h : t.Matches u) : u.Matches t :=
  ⟨h.id.symm, h.state.symm, h.stack.imp fun _ hs => hs.symm⟩

theorem frames (h : t.Matches u) : u.frames = t.frames := by
  obtain ⟨frames, ht, hu⟩ := h.stack
  rw [ht.frames, hu.frames]

theorem trans (h : t.Matches u) (h' : u.Matches v) : t.Matches v where
  id := h'.id.trans h.id
  state := h'.state.trans h.state
  stack := by
    obtain ⟨shown, ht, hu⟩ := h.stack
    obtain ⟨shown', hu', hv⟩ := h'.stack
    obtain rfl : shown = shown' := hu.frames.symm.trans hu'.frames
    exact ⟨shown, ht, hv⟩

theorem suspend (h : t.Matches u) (reason : Reason) :
    Option.Rel Matches (t.suspend reason).toOption (u.suspend reason).toOption := by
  unfold DebugThread.suspend
  rw [h.state]
  cases t.state with
  | notStarted | resumed | stepping => exact .some ⟨h.id, rfl, h.stack⟩
  | suspended | terminated => exact .none

theorem applyResume (h : t.Matches u) (mode : Mode) :
    Option.Rel Matches (t.applyResume mode).toOption (u.applyResume mode).toOption := by
  unfold DebugThread.applyResume
  rw [h.state]
  split
  · exact .some ⟨h.id, rfl, h.stack⟩
  · exact .none

theorem noteResumed (h : t.Matches u) (mode : Mode) :
    Option.Rel Matches (t.noteResumed mode).toOption (u.noteResumed mode).toOption := by
  unfold DebugThread.noteResumed
  rw [h.state]
  cases t.state with
  | suspended | resumed | stepping => exact .some ⟨h.id, rfl, h.stack⟩
  | notStarted | terminated => exact .none

theorem terminate (h : t.Matches u) : t.terminate.Matches u.terminate :=
  ⟨h.id, rfl, h.stack⟩

theorem replaceFrames (h : t.Matches u) (frames : List Frame) :
    Option.Rel Matches (t.replaceFrames frames).toOption (u.replaceFrames frames).toOption := by
  by_cases hs : t.state = .terminated
  · simp only [DebugThread.replaceFrames, h.state, if_pos hs]
    exact .none
  · have hs' : u.state ≠ .terminated := h.state ▸ hs
    simp only [DebugThread.replaceFrames, if_neg hs, if_neg hs']
    exact .some ⟨h.id, h.state, frames, carries_replaceFrames (if_neg hs), carries_replaceFrames (if_neg hs')⟩

theorem pushFrame (h : t.Matches u) (frame : Frame) :
    Option.Rel Matches (t.pushFrame frame).toOption (u.pushFrame frame).toOption := by
  obtain ⟨frames, ht, hu⟩ := h.stack
  by_cases hs : t.state = .terminated
  · simp only [DebugThread.pushFrame, h.state, if_pos hs]
    exact .none
  · have hs' : u.state ≠ .terminated := h.state ▸ hs
    simp only [DebugThread.pushFrame, if_neg hs, if_neg hs']
    exact .some ⟨h.id, h.state, _, ht.pushFrame (if_neg hs), hu.pushFrame (if_neg hs')⟩

end Matches

/-- Two threads that match, or none on either side. -/
theorem matches_or_none {a b : Option DebugThread} (h : Option.Rel Matches a b) :
    a = none ∧ b = none ∨ ∃ t u : DebugThread, a = some t ∧ b = some u ∧ t.Matches u := by
  cases h with
  | none => exact .inl ⟨rfl, rfl⟩
  | some hm => exact .inr ⟨_, _, rfl, rfl, hm⟩

/-- The same of a transition that may be refused. -/
theorem matches_or_error {a b : Except Refusal DebugThread} (h : Option.Rel Matches a.toOption b.toOption) :
    (∃ cause cause', a = .error cause ∧ b = .error cause') ∨
      ∃ t u : DebugThread, a = .ok t ∧ b = .ok u ∧ t.Matches u := by
  cases a with
  | error cause =>
      cases b with
      | error cause' => exact .inl ⟨cause, cause', rfl, rfl⟩
      | ok u => cases h
  | ok t =>
      cases b with
      | error cause' => cases h
      | ok u => cases h with
        | some hm => exact .inr ⟨t, u, rfl, rfl, hm⟩

end DebugThread

/-! ### Registries -/

namespace Registry

/-- Two registries with threads that match, place by place. -/
structure Matches (r s : Registry) : Prop where
  index : s.index = r.index
  threads : ∀ slot : Nat, Option.Rel DebugThread.Matches r.threads[slot]? s.threads[slot]?

namespace Matches

variable {r s p : Registry}

theorem symm (h : r.Matches s) : s.Matches r where
  index := h.index.symm
  threads slot := by
    obtain ⟨ha, hb⟩ | ⟨t, u, ha, hb, hm⟩ := DebugThread.matches_or_none (h.threads slot)
    · rw [ha, hb]
      exact .none
    · rw [ha, hb]
      exact .some hm.symm

theorem trans (h : r.Matches s) (h' : s.Matches p) : r.Matches p where
  index := h'.index.trans h.index
  threads slot := by
    have hnext := h'.threads slot
    obtain ⟨ha, hb⟩ | ⟨t, u, ha, hb, hm⟩ := DebugThread.matches_or_none (h.threads slot)
    · rwa [hb, ← ha] at hnext
    · rw [hb] at hnext
      rw [ha]
      generalize p.threads[slot]? = c at hnext ⊢
      cases hnext with
      | some hm' => exact .some (hm.trans hm')

theorem size (h : r.Matches s) : s.threads.size = r.threads.size := by
  have hiff (slot : Nat) : r.threads.size ≤ slot ↔ s.threads.size ≤ slot := by
    rw [← Array.getElem?_eq_none_iff, ← Array.getElem?_eq_none_iff]
    obtain ⟨ha, hb⟩ | ⟨t, u, ha, hb, -⟩ := DebugThread.matches_or_none (h.threads slot) <;> simp [ha, hb]
  exact Nat.le_antisymm ((hiff _).mp (Nat.le_refl _)) ((hiff _).mpr (Nat.le_refl _))

/-- A list of what is shown of the threads is the same for both. -/
theorem map_eq {β : Type} (h : r.Matches s) {f : DebugThread → β}
    (hf : ∀ {t u : DebugThread}, t.Matches u → f u = f t) :
    s.threads.toList.map f = r.threads.toList.map f := by
  refine List.ext_getElem? fun slot => ?_
  simp only [List.getElem?_map, Array.getElem?_toList]
  obtain ⟨ha, hb⟩ | ⟨t, u, ha, hb, hm⟩ := DebugThread.matches_or_none (h.threads slot)
  · rw [ha, hb]
  · rw [ha, hb]
    exact congrArg some (hf hm)

/-- The identities of the threads in certain states are the same for both. -/
theorem filter_eq (h : r.Matches s) {keep : DebugThread → Bool}
    (hkeep : ∀ {t u : DebugThread}, t.Matches u → keep u = keep t) :
    (s.threads.toList.filter keep).map DebugThread.id = (r.threads.toList.filter keep).map DebugThread.id := by
  have hlist (threads : List DebugThread) : (threads.filter keep).map DebugThread.id =
      (threads.map fun t => if keep t then some t.id else none).filterMap id := by
    induction threads with
    | nil => rfl
    | cons t rest ih => cases hk : keep t <;> simp [hk, ih]
  rw [hlist, hlist, h.map_eq fun hm => by rw [hkeep hm, hm.id]]

theorem get? (h : r.Matches s) (id : ThreadId) :
    Option.Rel DebugThread.Matches (r.get? id) (s.get? id) := by
  unfold Registry.get?
  rw [h.index]
  split
  · exact h.threads _
  · exact .none

theorem contact (h : r.Matches s) (id : ThreadId) :
    (s.contact id).1 = (r.contact id).1 ∧ (r.contact id).2.Matches (s.contact id).2 := by
  unfold Registry.contact
  rw [h.index, h.size]
  split
  · exact ⟨rfl, h⟩
  · refine ⟨rfl, rfl, fun slot => ?_⟩
    simp only [Array.getElem?_push, h.size]
    split
    · exact .some ⟨rfl, rfl, [], DebugThread.carries_new id, DebugThread.carries_new id⟩
    · exact h.threads slot

theorem update (h : r.Matches s) {next next' : DebugThread} (hn : next.Matches next') :
    (r.update next.id fun _ => next).Matches (s.update next'.id fun _ => next') := by
  unfold Registry.update
  rw [h.index, hn.id]
  split
  · next place _ =>
      refine ⟨rfl, fun slot => ?_⟩
      simp only [Array.getElem?_modify]
      split
      · obtain ⟨ha, hb⟩ | ⟨t, u, ha, hb, -⟩ := DebugThread.matches_or_none (h.threads slot)
        · rw [ha, hb]
          exact .none
        · rw [ha, hb]
          exact .some hn
      · exact h.threads slot
  · exact h

theorem terminateAll (h : r.Matches s) :
    s.terminateAll.1 = r.terminateAll.1 ∧ r.terminateAll.2.Matches s.terminateAll.2 := by
  refine ⟨h.filter_eq fun hm => by rw [hm.state], h.index, fun slot => ?_⟩
  simp only [Registry.terminateAll, Array.getElem?_map]
  obtain ⟨ha, hb⟩ | ⟨t, u, ha, hb, hm⟩ := DebugThread.matches_or_none (h.threads slot)
  · rw [ha, hb]
    exact .none
  · rw [ha, hb]
    exact .some hm.terminate

end Matches

end Registry

/-! ### Targets -/

namespace Target

/-- Two targets that show the same. -/
structure Matches (t u : Target) : Prop where
  state : u.state = t.state
  options : u.options = t.options
  registry : t.registry.Matches u.registry

/-- The frames on the stack of a thread, if it was ever heard of. -/
def framesOf (t : Target) (id : ThreadId) : Option (List Frame) :=
  (t.thread? id).map DebugThread.frames

namespace Matches

variable {t u v : Target}

theorem symm (h : t.Matches u) : u.Matches t :=
  ⟨h.state.symm, h.options.symm, h.registry.symm⟩

theorem trans (h : t.Matches u) (h' : u.Matches v) : t.Matches v :=
  ⟨h'.state.trans h.state, h'.options.trans h.options, h.registry.trans h'.registry⟩

theorem isTerminated (h : t.Matches u) : u.isTerminated = t.isTerminated := by
  rw [Target.isTerminated, Target.isTerminated, h.state]

theorem shown (h : t.Matches u) (frames : List Frame) : u.shown frames = t.shown frames := by
  rw [Target.shown, Target.shown, h.options]

theorem modeFor (h : t.Matches u) (root : Bool) : u.modeFor root = t.modeFor root := by
  rw [Target.modeFor, Target.modeFor, h.options]

theorem thread? (h : t.Matches u) (id : ThreadId) :
    Option.Rel DebugThread.Matches (t.thread? id) (u.thread? id) :=
  h.registry.get? id

/-- A target that matches itself has threads that do. -/
theorem thread_self (h : t.Matches t) {id : ThreadId} {thread : DebugThread}
    (hthread : t.thread? id = some thread) : thread.Matches thread := by
  have hself := h.thread? id
  rw [hthread] at hself
  cases hself with
  | some hm => exact hm

/-- Whatever is shown of a thread is the same for both. -/
theorem map_thread {β : Type} (h : t.Matches u) (id : ThreadId) {f : DebugThread → β}
    (hf : ∀ {a b : DebugThread}, a.Matches b → f b = f a) : (u.thread? id).map f = (t.thread? id).map f := by
  obtain ⟨ha, hb⟩ | ⟨a, b, ha, hb, hm⟩ := DebugThread.matches_or_none (h.thread? id)
  · rw [ha, hb]
  · rw [ha, hb]
    exact congrArg some (hf hm)

theorem stateOf (h : t.Matches u) (id : ThreadId) : u.stateOf id = t.stateOf id :=
  h.map_thread id fun hm => hm.state

theorem framesOf (h : t.Matches u) (id : ThreadId) : u.framesOf id = t.framesOf id :=
  h.map_thread id fun hm => hm.frames

/-- The same scripts are on stacks. -/
theorem scriptsOnStacks (h : t.Matches u) (resource : String) :
    u.scriptsOnStacks resource = t.scriptsOnStacks resource := by
  have hframes := h.registry.map_eq fun hm => hm.frames
  unfold Target.scriptsOnStacks
  rw [List.flatMap_def, List.flatMap_def, hframes]

/-- A thread makes the same transition in both. -/
theorem transition (h : t.Matches u) (id : ThreadId) {f : DebugThread → Except Refusal DebugThread}
    (hf : ∀ {a b : DebugThread}, a.Matches b → Option.Rel DebugThread.Matches (f a).toOption (f b).toOption) :
    Option.Rel DebugThread.Matches (t.transition? id f) (u.transition? id f) := by
  unfold Target.transition?
  obtain ⟨ha, hb⟩ | ⟨a, b, ha, hb, hm⟩ := DebugThread.matches_or_none (h.thread? id)
  · rw [ha, hb]
    exact .none
  · rw [ha, hb]
    exact hf hm

theorem setThread (h : t.Matches u) {next next' : DebugThread} (hn : next.Matches next') :
    (t.setThread next).Matches (u.setThread next') :=
  ⟨h.state, h.options, h.registry.update hn⟩

/-! ### Reports -/

theorem scriptReady (h : t.Matches u) (store : BreakpointStore) (id : ThreadId) (script : Snapshot)
    (root : Bool) : (u.scriptReady store id script root).1 = (t.scriptReady store id script root).1 ∧
      (t.scriptReady store id script root).2.Matches (u.scriptReady store id script root).2 := by
  obtain ⟨hnew, hregistry⟩ := h.registry.contact id
  have hc : Matches { t with registry := (t.registry.contact id).2 }
      { u with registry := (u.registry.contact id).2 } := ⟨h.state, h.options, hregistry⟩
  have hmode := hc.modeFor root
  have hsuspend := hc.transition id fun hm => hm.suspend .scriptLoaded
  obtain ⟨ha, hb⟩ | ⟨a, b, ha, hb, hm⟩ := DebugThread.matches_or_none hsuspend
  · simp only [Target.scriptReady, ha, hb, hnew]
    exact ⟨trivial, hc⟩
  · by_cases hshown : (t.options.showDynamicCode || !script.isDynamic) = true
    · have hshown' : (u.options.showDynamicCode || !script.isDynamic) = true := by rwa [h.options]
      obtain ⟨cause, cause', hp, hq⟩ | ⟨next, next', hp, hq, hn⟩ := DebugThread.matches_or_error
        (hm.pushFrame (Frame.capture script 0 (loadedKind script root) none))
      · simp only [Target.scriptReady, ha, hb, hnew, hmode, if_pos hshown, if_pos hshown', hm.state, hp, hq]
        exact ⟨trivial, hc.setThread hm⟩
      · simp only [Target.scriptReady, ha, hb, hnew, hmode, if_pos hshown, if_pos hshown', hm.state, hp, hq]
        exact ⟨trivial, hc.setThread hn⟩
    · have hshown' : ¬ (u.options.showDynamicCode || !script.isDynamic) = true := by rwa [h.options]
      simp only [Target.scriptReady, ha, hb, hnew, hmode, if_neg hshown, if_neg hshown', hm.state]
      exact ⟨trivial, hc.setThread hm⟩

theorem stackFrames (h : t.Matches u) (id : ThreadId) (frames : List Frame) :
    (u.stackFrames id frames).1 = (t.stackFrames id frames).1 ∧
      (t.stackFrames id frames).2.Matches (u.stackFrames id frames).2 := by
  have hreplace := h.transition id fun hm => hm.replaceFrames (t.shown frames)
  obtain ⟨ha, hb⟩ | ⟨a, b, ha, hb, hm⟩ := DebugThread.matches_or_none hreplace
  · simp only [Target.stackFrames, h.shown, ha, hb]
    exact ⟨trivial, h⟩
  · simp only [Target.stackFrames, h.shown, ha, hb]
    exact ⟨trivial, h.setThread hm⟩

theorem suspended (h : t.Matches u) (id : ThreadId) (frames : List Frame) (reason : Reason) :
    (u.suspended id frames reason).1 = (t.suspended id frames reason).1 ∧
      (t.suspended id frames reason).2.Matches (u.suspended id frames reason).2 := by
  have hsuspend := h.transition id fun hm => hm.suspend reason
  obtain ⟨ha, hb⟩ | ⟨a, b, ha, hb, hm⟩ := DebugThread.matches_or_none hsuspend
  · simp only [Target.suspended, ha, hb]
    exact ⟨trivial, h⟩
  · simp only [Target.suspended, h.shown, ha, hb, hm.state]
    obtain ⟨cause, cause', hp, hq⟩ | ⟨next, next', hp, hq, hn⟩ :=
      DebugThread.matches_or_error (hm.replaceFrames (t.shown frames))
    · simp only [hp, hq]
      exact ⟨trivial, h.setThread hm⟩
    · simp only [hp, hq]
      exact ⟨trivial, h.setThread hn⟩

theorem resumed (h : t.Matches u) (id : ThreadId) (mode : Mode) :
    (u.resumed id mode).1 = (t.resumed id mode).1 ∧
      (t.resumed id mode).2.Matches (u.resumed id mode).2 := by
  obtain ⟨ha, hb⟩ | ⟨a, b, ha, hb, hm⟩ := DebugThread.matches_or_none (h.thread? id)
  · simp only [Target.resumed, ha, hb]
    exact ⟨trivial, h⟩
  · simp only [Target.resumed, ha, hb, hm.state]
    obtain ⟨cause, cause', hp, hq⟩ | ⟨next, next', hp, hq, hn⟩ :=
      DebugThread.matches_or_error (hm.noteResumed mode)
    · simp only [hp, hq]
      exact ⟨trivial, h⟩
    · simp only [hp, hq, hn.state]
      exact ⟨trivial, h.setThread hn⟩

theorem terminate (h : t.Matches u) (fault : Option Fault) :
    (u.terminate fault).1 = (t.terminate fault).1 ∧
      (t.terminate fault).2.Matches (u.terminate fault).2 := by
  obtain ⟨hended, hregistry⟩ := h.registry.terminateAll
  unfold Target.terminate
  rw [h.isTerminated]
  split
  · exact ⟨rfl, h⟩
  · refine ⟨congrArg (fun ended : List ThreadId => ended.map (fun id => Callback.threadStateChanged id .terminated) ++
      [.sessionTerminated fault]) hended, rfl, h.options, hregistry⟩

/-- **Both handle a report in the same way.** -/
theorem handleNotification (h : t.Matches u) (store : BreakpointStore) (n : Notification) :
    (u.handleNotification store n).1 = (t.handleNotification store n).1 ∧
      (t.handleNotification store n).2.Matches (u.handleNotification store n).2 := by
  obtain ⟨hcallbacks, hended⟩ := h.terminate none
  have heffects := congrArg (fun cs : List Callback => ({ callbacks := cs } : Effects)) hcallbacks
  unfold Target.handleNotification
  rw [h.state]
  cases hs : t.state with
  | terminated => exact ⟨rfl, h⟩
  | notStarted =>
      cases n with
      | engineStarted => exact ⟨rfl, rfl, h.options, h.registry⟩
      | engineTerminated => exact ⟨heffects, hended⟩
      | scriptReady | stackFrames | suspended | resumed => exact ⟨rfl, h⟩
  | running =>
      cases n with
      | engineStarted => exact ⟨rfl, h⟩
      | engineTerminated => exact ⟨heffects, hended⟩
      | scriptReady id script root => exact h.scriptReady store id script root
      | stackFrames id frames => exact h.stackFrames id frames
      | suspended id frames reason => exact h.suspended id frames reason
      | resumed id mode => exact h.resumed id mode

/-- **Both handle a command in the same way.** -/
theorem handleCommand (h : t.Matches u) (c : Command) :
    (u.handleCommand c).1 = (t.handleCommand c).1 ∧
      (t.handleCommand c).2.Matches (u.handleCommand c).2 := by
  unfold Target.handleCommand
  rw [h.isTerminated]
  split
  · exact ⟨rfl, h⟩
  · cases c with
    | terminate | setBreakpoint => exact ⟨rfl, h⟩
    | disconnect =>
        obtain ⟨hcallbacks, hended⟩ := h.terminate none
        exact ⟨congrArg (fun cs : List Callback => ({ callbacks := cs, deliver := true } : Effects)) hcallbacks,
          hended⟩
    | resume id mode =>
        obtain ⟨ha, hb⟩ | ⟨a, b, ha, hb, hm⟩ := DebugThread.matches_or_none
          (h.transition id fun hm => hm.applyResume mode)
        · simp only [ha, hb]
          exact ⟨trivial, h⟩
        · simp only [ha, hb, hm.state]
          exact ⟨trivial, h.setThread hm⟩

end Matches

/-- A version of a thread that shows the same makes no difference to what a target shows. -/
theorem matches_setThread {t : Target} (hr : t.registry.Indexed) (hself : t.Matches t) {id : ThreadId}
    {before next : DebugThread} (hbefore : t.thread? id = some before) (hn : before.Matches next) :
    t.Matches (t.setThread next) := by
  have hid : before.id = id := id_of_thread? hr hbefore
  refine ⟨rfl, rfl, ?_⟩
  show t.registry.Matches (t.registry.update next.id fun _ => next)
  rw [hn.id, hid]
  unfold Registry.update
  split
  · next place hplace =>
      refine ⟨rfl, fun slot => ?_⟩
      rw [Target.thread?, Registry.get?_of_slot hplace] at hbefore
      simp only [Array.getElem?_modify]
      split
      · next hslot =>
          subst hslot
          rw [hbefore]
          exact .some hn
      · exact hself.registry.threads slot
  · exact hself.registry

end Target

end Pausepoint
