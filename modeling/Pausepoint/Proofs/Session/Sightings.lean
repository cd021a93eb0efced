import Pausepoint.Proofs.Session.Proceedings
import Pausepoint.Proofs.Session.Prospect
import Pausepoint.Proofs.Session.Tells

/-!
# Pausepoint.Proofs.Session.Sightings

The scripts that a session has heard of.

A session hears of scripts by reports alone: a script is announced, or it stands in a frame. Where the
interpreter gives ever higher numbers to the scripts that it announces, a session knows at any time only
scripts below some number, and the reports that wait take that number up.

* `Notification.Lifts` — a report takes the bound from one number up to another;
* `Target.Publishes` — all frames that were ever published have a property, whatever it is;
* `Target.Below` — all frames that were ever published are of scripts below a number;
* `Session.Sights` — so are the commands on their way, and the reports that wait lead further up.
-/

namespace Pausepoint

/-! ### Reports about scripts -/

namespace Notification

/-- The scripts that a report mentions. -/
def scripts : Notification → List Snapshot
  | .scriptReady _ script _ => [script]
  | .stackFrames _ frames | .suspended _ frames _ => frames.map Frame.script
  | .resumed .. | .engineStarted | .engineTerminated => []

/-- From one bound to another: a report mentions scripts below the new one, and announces none below the
old one. -/
structure Lifts (n : Notification) (lo hi : Nat) : Prop where
  le : lo ≤ hi
  below : ∀ script ∈ n.scripts, script.id.number < hi
  new : ∀ thread script root, n = .scriptReady thread script root → lo ≤ script.id.number

variable {n : Notification} {lo hi : Nat}

theorem lifts_of_none (h : n.scripts = []) (bound : Nat) : n.Lifts bound bound where
  le := Nat.le_refl bound
  below := by simp [h]
  new thread script root he := by
    rw [he] at h
    cases h

theorem Lifts.of_le (h : n.Lifts lo hi) {lo' : Nat} (hle : lo' ≤ lo) : n.Lifts lo' hi where
  le := Nat.le_trans hle h.le
  below := h.below
  new thread script root he := Nat.le_trans hle (h.new thread script root he)

end Notification

/-- The report that an event is, if it is one. -/
def Event.report? : Event → Option Notification
  | .notification n => some n
  | .command _ => none

/-- The reports among some events. -/
def reportsOf (events : List Event) : List Notification :=
  events.filterMap Event.report?

@[simp] theorem reportsOf_append (events later : List Event) :
    reportsOf (events ++ later) = reportsOf events ++ reportsOf later :=
  List.filterMap_append

@[simp] theorem reportsOf_cons_notification (n : Notification) (events : List Event) :
    reportsOf (.notification n :: events) = n :: reportsOf events := rfl

@[simp] theorem reportsOf_cons_command (c : Command) (events : List Event) :
    reportsOf (.command c :: events) = reportsOf events := rfl

@[simp] theorem reportsOf_commands (cs : List Command) : reportsOf (cs.map .command) = [] := by
  simp [reportsOf, Event.report?]

/-- Reports take a bound up to another one, one after the other. -/
def LiftsAll : Nat → List Notification → Nat → Prop
  | lo, [], hi => lo ≤ hi
  | lo, n :: rest, hi => ∃ mid, n.Lifts lo mid ∧ LiftsAll mid rest hi

section

variable {ns : List Notification} {n : Notification} {lo mid hi : Nat}

theorem LiftsAll.of_ge (h : LiftsAll lo ns mid) (hle : mid ≤ hi) : LiftsAll lo ns hi := by
  induction ns generalizing lo with
  | nil => exact Nat.le_trans h hle
  | cons n rest ih =>
      obtain ⟨between, hn, hrest⟩ := h
      exact ⟨between, hn, ih hrest⟩

/-- One report more. -/
theorem LiftsAll.snoc (h : LiftsAll lo ns mid) (hn : n.Lifts mid hi) : LiftsAll lo (ns ++ [n]) hi := by
  induction ns generalizing lo with
  | nil => exact ⟨hi, hn.of_le h, Nat.le_refl hi⟩
  | cons m rest ih =>
      obtain ⟨between, hm, hrest⟩ := h
      exact ⟨between, hm, ih hrest⟩

end

/-! ### Frames that were published -/

namespace DebugThread

theorem published_replaceFrames {t next : DebugThread} {frames : List Frame}
    (h : t.replaceFrames frames = .ok next) : next.sheets.1 = t.sheets.1 ++ frames := by
  unfold replaceFrames at h
  split at h
  · cases h
  · obtain rfl := Except.ok.inj h
    rw [sheets_publish]

theorem published_pushFrame {t next : DebugThread} {frame : Frame} (h : t.pushFrame frame = .ok next) :
    next.sheets.1 = t.sheets.1 ++ [frame] := by
  unfold pushFrame at h
  split at h
  · cases h
  · obtain rfl := Except.ok.inj h
    rw [sheets_publish]

/-- A stack is made of frames that were published. -/
theorem frames_subset_sheets (t : DebugThread) : t.frames ⊆ t.sheets.1 := by
  intro frame hframe
  obtain ⟨slot, -, hslot⟩ := List.mem_filterMap.mp hframe
  obtain ⟨p, hp, rfl⟩ := Option.map_eq_some_iff.mp hslot
  exact List.mem_map_of_mem (Array.mem_toList_iff.mpr (Array.mem_of_getElem? hp))

end DebugThread

namespace Target

/-- Every frame that was ever published has a property. -/
def Publishes (t : Target) (P : Frame → Prop) : Prop :=
  ∀ id, ∀ frame ∈ (t.sheetsOf id).1, P frame

/-- Every frame that was ever published is of a script below a number. -/
def Below (t : Target) (bound : Nat) : Prop :=
  ∀ id, ∀ frame ∈ (t.sheetsOf id).1, frame.script.id.number < bound

/-- The frames that a report brings, if the target takes it. -/
def presents (t : Target) : Notification → List Frame
  | .scriptReady _ script root =>
      if t.options.showDynamicCode || !script.isDynamic then
        [Frame.capture script 0 (loadedKind script root) none]
      else []
  | .stackFrames _ frames | .suspended _ frames _ => t.shown frames
  | .resumed .. | .engineStarted | .engineTerminated => []

section

variable {t t' : Target} {P : Frame → Prop} {bound bound' : Nat}

theorem Below.of_le (h : t.Below bound) (hle : bound ≤ bound') : t.Below bound' :=
  fun id frame hframe => Nat.lt_of_lt_of_le (h id frame hframe) hle

theorem Publishes.of_sheets (h : t.Publishes P) (hs : ∀ id, t'.sheetsOf id = t.sheetsOf id) :
    t'.Publishes P := by
  intro id
  rw [hs]
  exact h id

/-- Another version of a thread, which may show more. -/
theorem Publishes.setThread (h : t.Publishes P) (hr : t.registry.Exact) {id : ThreadId}
    {before next : DebugThread} (hbefore : t.thread? id = some before) (hid : next.id = before.id)
    {frames : List Frame} (hsheets : next.sheets.1 = before.sheets.1 ++ frames)
    (hframes : ∀ frame ∈ frames, P frame) : (t.setThread next).Publishes P := by
  have hthread : next.id = id := hid.trans (id_of_thread? hr.indexed hbefore)
  subst hthread
  have hm := moves_setThread hr.indexed next hbefore
  intro other frame hframe
  by_cases hother : other = next.id
  · rw [hother, sheetsOf_of_thread hm.self, hsheets] at hframe
    rcases List.mem_append.mp hframe with hframe | hframe
    · exact h next.id frame (by rwa [sheetsOf_of_thread hbefore])
    · exact hframes frame hframe
  · rw [hm.sheetsOf_of_ne hother] at hframe
    exact h other frame hframe

/-- Another version of a thread, which shows the same. -/
theorem Publishes.setThread_same (h : t.Publishes P) (hr : t.registry.Exact) {id : ThreadId}
    {before next : DebugThread} (hbefore : t.thread? id = some before) (hid : next.id = before.id)
    (hsheets : next.sheets = before.sheets) : (t.setThread next).Publishes P := by
  have hnothing : next.sheets.1 = before.sheets.1 ++ [] := by rw [hsheets, List.append_nil]
  exact h.setThread hr hbefore hid hnothing fun frame hframe => absurd hframe List.not_mem_nil

theorem Publishes.terminate (h : t.Publishes P) (hr : t.registry.Exact) (fault : Option Fault) :
    (t.terminate fault).2.Publishes P :=
  h.of_sheets fun id =>
    ((tells_terminate hr fault).stacked id).2 (stackFramesChanged_not_mem_terminate t fault id)

theorem Publishes.scriptReady (h : t.Publishes P) (hr : t.registry.Exact) (store : BreakpointStore)
    (id : ThreadId) (script : Snapshot) (root : Bool)
    (hframes : ∀ frame ∈ t.presents (.scriptReady id script root), P frame) :
    (t.scriptReady store id script root).2.Publishes P := by
  have hr' := Registry.exact_contact hr id
  have h' : ({ t with registry := (t.registry.contact id).2 } : Target).Publishes P :=
    h.of_sheets (sheetsOf_contact hr id)
  unfold Target.scriptReady
  dsimp only
  split
  · next next htrans =>
      obtain ⟨before, hbefore, hsuspend⟩ := exists_of_transition htrans
      obtain ⟨hid, -, -, hsheets⟩ := DebugThread.suspend_cases hsuspend
      have hplain := h'.setThread_same hr' hbefore hid hsheets
      split
      · next hshown =>
          split
          · next pushed hpush =>
              have hpushed := DebugThread.published_pushFrame hpush
              rw [hsheets] at hpushed
              refine h'.setThread hr' hbefore ((DebugThread.pushFrame_cases hpush).1.trans hid) hpushed ?_
              rwa [presents, if_pos hshown] at hframes
          · exact hplain
      · exact hplain
  · exact h'

theorem Publishes.stackFrames (h : t.Publishes P) (hr : t.registry.Exact) (id : ThreadId)
    {frames : List Frame} (hframes : ∀ frame ∈ t.shown frames, P frame) :
    (t.stackFrames id frames).2.Publishes P := by
  unfold Target.stackFrames
  split
  · next next htrans =>
      obtain ⟨before, hbefore, hreplace⟩ := exists_of_transition htrans
      exact h.setThread hr hbefore (DebugThread.replaceFrames_cases hreplace).1
        (DebugThread.published_replaceFrames hreplace) hframes
  · exact h

theorem Publishes.suspended (h : t.Publishes P) (hr : t.registry.Exact) (id : ThreadId)
    {frames : List Frame} (hframes : ∀ frame ∈ t.shown frames, P frame) (reason : Reason) :
    (t.suspended id frames reason).2.Publishes P := by
  unfold Target.suspended
  split
  · next next htrans =>
      obtain ⟨before, hbefore, hsuspend⟩ := exists_of_transition htrans
      obtain ⟨hid, -, -, hsheets⟩ := DebugThread.suspend_cases hsuspend
      dsimp only
      split
      · next replaced hreplace =>
          have hreplaced := DebugThread.published_replaceFrames hreplace
          rw [hsheets] at hreplaced
          exact h.setThread hr hbefore ((DebugThread.replaceFrames_cases hreplace).1.trans hid) hreplaced
            hframes
      · exact h.setThread_same hr hbefore hid hsheets
  · exact h

theorem Publishes.resumed (h : t.Publishes P) (hr : t.registry.Exact) (id : ThreadId) (mode : Mode) :
    (t.resumed id mode).2.Publishes P := by
  unfold Target.resumed
  split
  · exact h
  · next before hbefore =>
      split
      · exact h
      · next next hnote =>
          obtain ⟨hid, hsheets⟩ := DebugThread.noteResumed_cases hnote
          exact h.setThread_same hr hbefore hid hsheets

/-- **A report** brings the frames that it presents, and no others. -/
theorem Publishes.handleNotification (h : t.Publishes P) (hr : t.registry.Exact) (store : BreakpointStore)
    {n : Notification} (hframes : ∀ frame ∈ t.presents n, P frame) :
    (t.handleNotification store n).2.Publishes P := by
  unfold Target.handleNotification
  split
  · exact h
  · exact h
  · exact h
  · exact h.terminate hr none
  · exact h
  · exact h.scriptReady hr store _ _ _ hframes
  · exact h.stackFrames hr _ hframes
  · exact h.suspended hr _ hframes _
  · exact h.resumed hr _ _

/-- A command brings no frame. -/
theorem Publishes.handleCommand (h : t.Publishes P) (hr : t.registry.Exact) (c : Command) :
    (t.handleCommand c).2.Publishes P := by
  refine h.of_sheets fun id => ((tells_handleCommand hr c).stacked id).2 ?_
  unfold Target.handleCommand
  split
  · simp
  · cases c with
    | resume thread mode =>
        dsimp only
        split <;> simp
    | disconnect => exact stackFramesChanged_not_mem_terminate t none id
    | terminate | setBreakpoint => simp

/-- The frames that a report brings are of scripts that it mentions. -/
theorem script_of_mem_presents {n : Notification} {frame : Frame} (h : frame ∈ t.presents n) :
    frame.script ∈ n.scripts := by
  have hshown {frames : List Frame} (hmem : frame ∈ t.shown frames) :
      frame.script ∈ frames.map Frame.script := by
    refine List.mem_map_of_mem ?_
    unfold shown at hmem
    split at hmem
    · exact hmem
    · exact (List.mem_filter.mp hmem).1
  cases n with
  | scriptReady id script root =>
      simp only [presents] at h
      split at h
      · rw [List.mem_singleton.mp h]
        exact List.mem_cons_self
      · exact absurd h List.not_mem_nil
  | stackFrames id frames | suspended id frames reason => exact hshown h
  | resumed | engineStarted | engineTerminated => exact absurd h List.not_mem_nil

/-- **A report** shows the scripts that it mentions, and no others. -/
theorem Below.handleNotification (h : t.Below bound) (hr : t.registry.Exact) (store : BreakpointStore)
    {n : Notification} (hn : ∀ script ∈ n.scripts, script.id.number < bound) :
    (t.handleNotification store n).2.Below bound :=
  Publishes.handleNotification h hr store fun _ hframe => hn _ (script_of_mem_presents hframe)

theorem mem_of_mem_insertScript {id other : ScriptId} {ids : List ScriptId}
    (h : other ∈ insertScript id ids) : other = id ∨ other ∈ ids := by
  induction ids with
  | nil => exact .inl (List.mem_singleton.mp h)
  | cons first rest ih =>
      unfold insertScript at h
      split at h
      · exact List.mem_cons.mp h
      · split at h
        · exact .inr h
        · rcases List.mem_cons.mp h with rfl | h
          · exact .inr List.mem_cons_self
          · exact (ih h).imp_right (List.mem_cons_of_mem _)

theorem mem_of_mem_insertScripts {id : ScriptId} {ids : List ScriptId}
    (h : id ∈ ids.foldr insertScript []) : id ∈ ids := by
  induction ids with
  | nil => exact h
  | cons first rest ih =>
      rcases mem_of_mem_insertScript h with rfl | h
      · exact List.mem_cons_self
      · exact List.mem_cons_of_mem _ (ih h)

/-- The scripts on stacks stand in frames that were published. -/
theorem Below.lt_of_mem_scriptsOnStacks (h : t.Below bound) (hr : t.registry.Exact) {id : ScriptId}
    {resource : String} (hid : id ∈ t.scriptsOnStacks resource) : id.number < bound := by
  obtain ⟨frame, hframe, rfl⟩ := List.mem_map.mp (mem_of_mem_insertScripts hid)
  obtain ⟨thread, hthread, hframe⟩ := List.mem_flatMap.mp (List.mem_filter.mp hframe).1
  obtain ⟨slot, hslot⟩ := List.mem_iff_getElem?.mp hthread
  rw [Array.getElem?_toList] at hslot
  have hget : t.thread? thread.id = some thread :=
    (Registry.get?_of_slot ((hr thread.id slot).mpr ⟨thread, hslot, rfl⟩)).trans hslot
  refine h thread.id frame ?_
  rw [sheetsOf_of_thread hget]
  exact thread.frames_subset_sheets hframe

end

end Target

/-! ### What a session knows -/

namespace Session

/-- **What a session knows** of scripts is below a number, and the reports that wait lead from there to
another one. -/
structure Sights (s : Session) (lo hi : Nat) : Prop where
  shown : s.target.Below lo
  ordered : ∀ id b action, .setBreakpoint id b action ∈ s.pipeline → id.number < lo
  coming : LiftsAll lo (reportsOf s.queue.events) hi

section

variable {s s' : Session} {lo mid hi : Nat}

theorem Sights.of_ge (h : s.Sights lo mid) (hle : mid ≤ hi) : s.Sights lo hi :=
  { h with coming := h.coming.of_ge hle }

/-- **A report** comes behind the others, if it comes at all. -/
theorem Sights.notify (h : s.Sights lo mid) {n : Notification} (hn : n.Lifts mid hi) :
    (s.notify n).2.Sights lo hi := by
  obtain ⟨htarget, -, -, hqueue⟩ := s.notify_frame n
  refine ⟨htarget ▸ h.shown, ?_, ?_⟩
  · rw [(s.pipeline_notify n).1]
    exact h.ordered
  · rcases hqueue with hqueue | hqueue
    · rw [hqueue]
      exact h.coming.of_ge hn.le
    · rw [hqueue, reportsOf_append]
      exact h.coming.snoc hn

/-- To give up on a pause is no matter of scripts. -/
theorem Sights.abandonPause (h : s.Sights lo hi) (thread : ThreadId) :
    (s.abandonPause thread).2.Sights lo hi :=
  ⟨h.shown, h.ordered, h.coming⟩

/-- A change of a breakpoint concerns scripts on stacks. -/
theorem commanded_onStacks (s : Session) {c : ControlCall} (hcancel : c ≠ .cancel)
    (hset : ∀ script b, c ≠ .setBreakpoint script b) :
    ∃ cs, s.Commanded (c.run s) cs ∧ ∀ id b action, .setBreakpoint id b action ∈ cs →
      ∃ resource, id ∈ s.target.scriptsOnStacks resource := by
  have hforward (breakpoints : BreakpointStore) (b : Breakpoint) (action : BreakpointAction) :
      ∃ cs, s.Commanded (orderAll { s with breakpoints } (s.forwardCommands b action)).2 cs ∧
        ∀ id b action, .setBreakpoint id b action ∈ cs →
          ∃ resource, id ∈ s.target.scriptsOnStacks resource := by
    obtain ⟨cs, hsub, hcs, -⟩ :=
      commanded_orderAll { s with breakpoints } (s.forwardCommands b action)
    refine ⟨cs, hcs.of_same rfl rfl rfl rfl, fun id d other hmem => ?_⟩
    exact ⟨b.resource, (mem_forwardCommands.mp (hsub hmem)).1⟩
  have hother {c : ControlCall} (hc : c.IsOther) : ∃ cs, s.Commanded (c.run s) cs ∧
      ∀ id b action, .setBreakpoint id b action ∈ cs →
        ∃ resource, id ∈ s.target.scriptsOnStacks resource := by
    obtain ⟨cs, hcs, hnone, -⟩ := s.commanded_other hc
    exact ⟨cs, hcs, fun id b action hmem => absurd rfl (hnone _ hmem id b action)⟩
  cases c with
  | cancel => exact absurd rfl hcancel
  | setBreakpoint script b => exact absurd rfl (hset script b)
  | addBreakpoint b =>
      obtain ⟨-, hsame⟩ | ⟨-, hrun⟩ := s.addBreakpoint_cases b
      · exact ⟨[], by rw [ControlCall.run, hsame]; exact .refl s, by simp⟩
      · rw [ControlCall.run, hrun]
        exact hforward _ b .add
  | removeBreakpoint b =>
      obtain ⟨-, hsame⟩ | ⟨-, hrun⟩ := s.removeBreakpoint_cases b
      · exact ⟨[], by rw [ControlCall.run, hsame]; exact .refl s, by simp⟩
      · rw [ControlCall.run, hrun]
        exact hforward _ b .remove
  | resume | resumeAll | terminate | disconnect | readVariables => exact hother trivial

/-- **A call** that names no script itself orders nothing about scripts that nobody has heard of. -/
theorem Sights.call (h : s.Sights lo hi) (hr : s.target.registry.Exact) {c : ControlCall}
    (hcancel : c ≠ .cancel) (hset : ∀ script b, c ≠ .setBreakpoint script b) :
    (c.run s).Sights lo hi := by
  obtain ⟨cs, hcs, hon⟩ := s.commanded_onStacks hcancel hset
  refine ⟨Target.Publishes.of_sheets h.shown fun id => (s.rereads_call c).sheets hr id, fun id b action hmem => ?_, ?_⟩
  · -- What the call orders is for scripts on stacks; everything else was on its way before.
    rw [hcs.pipeline_split] at hmem
    have hold := h.ordered id b action
    rw [Session.pipeline] at hold
    simp only [List.mem_append] at hmem hold
    rcases hmem with (hmem | hmem) | hmem | hmem
    · exact hold (.inl (.inl hmem))
    · exact hold (.inl (.inr hmem))
    · obtain ⟨resource, hid⟩ := hon id b action hmem
      exact h.shown.lt_of_mem_scriptsOnStacks hr hid
    · exact hold (.inr hmem)
  · rw [hcs.events, reportsOf_append, reportsOf_commands, List.append_nil]
    exact h.coming

/-- **A task** leaves fewer commands on their way. -/
theorem Sights.perform (h : s.Sights lo hi) {task : Task} (hopen : s.queue.closed = false)
    (hplain : s.queue.dedupe = false) (htask : task ≠ .closeQueue)
    (hs : s.perform? = some (task, s')) : s'.Sights lo hi := by
  have hpipeline := pipeline_perform_plain hopen hplain htask hs
  obtain ⟨rest, -, rfl⟩ := perform?_cases hs
  refine ⟨?_, fun id b action hmem => h.ordered id b action ?_, ?_⟩
  · rw [target_effect]
    exact h.shown
  · rw [hpipeline]
    exact List.mem_append_right _ hmem
  · have hreports : reportsOf ((s.withAgenda rest).effect task).queue.events =
        reportsOf s.queue.events := by
      cases task with
      | followUp c =>
          obtain ⟨cs, -, hcs, -⟩ := (s.withAgenda rest).commanded_submit c
          show reportsOf ((s.withAgenda rest).submit (.command c)).2.queue.events = _
          rw [hcs.events, reportsOf_append, reportsOf_commands, List.append_nil]
          rfl
      | closeQueue => exact absurd rfl htask
      | release | releaseAll | callback | command | forward | lastCallback | closeGate
      | forwardClosed | announceClosed | finish => rfl
    rw [hreports]
    exact h.coming

/-- **A report that is dispatched** takes the bound up. -/
theorem Sights.report (h : s.Sights lo hi) (hr : s.target.registry.Exact)
    (hfiled : s.breakpoints.Filed) (hidle : s.worker.agenda = []) {n : Notification}
    {rest : List Event} (hevents : s.queue.events = .notification n :: rest) :
    ∃ mid, n.Lifts lo mid ∧ ((s.withEvents rest).handle (.notification n)).Sights mid hi := by
  have hcoming := h.coming
  rw [hevents, reportsOf_cons_notification] at hcoming
  obtain ⟨mid, hn, hrest⟩ := hcoming
  refine ⟨mid, hn, ?_, fun id b action hmem => ?_, ?_⟩
  · rw [target_handle, targetAfter_withEvents]
    exact (h.shown.of_le hn.le).handleNotification hr s.breakpoints hn.below
  · rw [(pipeline_report hidle hevents).1] at hmem
    rcases List.mem_append.mp hmem with hmem | hmem
    · exact Nat.lt_of_lt_of_le (h.ordered id b action hmem) hn.le
    · -- A load brings breakpoints for its own script, which the bound has passed by now.
      obtain ⟨-, -, thread, script, root, rfl, rfl⟩ := mem_followUps hfiled hmem
      exact hn.below script List.mem_cons_self
  · rw [queue_handle, events_withEvents]
    exact hrest

/-- **A command that is dispatched** stays on its way, or does not. -/
theorem Sights.command (h : s.Sights lo hi) (hr : s.target.registry.Exact)
    (hidle : s.worker.agenda = []) {c : Command} {rest : List Event}
    (hevents : s.queue.events = .command c :: rest) :
    ((s.withEvents rest).handle (.command c)).Sights lo hi := by
  obtain ⟨hbefore, hafter, -⟩ := pipeline_command hidle hevents
  refine ⟨?_, fun id b action hmem => h.ordered id b action ?_, ?_⟩
  · rw [target_handle, targetAfter_withEvents]
    exact Target.Publishes.handleCommand h.shown hr c
  · rw [hbefore]
    rw [hafter] at hmem
    rcases List.mem_append.mp hmem with hmem | hmem
    · split at hmem
      · exact List.mem_append_left _ hmem
      · cases hmem
    · exact List.mem_cons_of_mem _ hmem
  · rw [queue_handle, events_withEvents]
    have hcoming := h.coming
    rwa [hevents, reportsOf_cons_command] at hcoming

end

end Session

end Pausepoint
