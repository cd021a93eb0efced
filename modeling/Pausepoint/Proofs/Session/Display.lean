import Mathlib.Data.List.Forall2
import Pausepoint.Proofs.Session.Reports
import Pausepoint.Session.Control

/-!
# Pausepoint.Proofs.Session.Display

What a client reads off the frames of a suspended thread.

The stack of a thread is a list of places among the frames that it ever published, and the variables of a
frame are read when they are first asked for. `DebugThread.Shows` relates a stack to the frames that were
reported: each place holds its frame, and what was read of it is what its scope contains. A new stack is
shown, reading keeps it so and gives the contents of the scope, and any other change of a target leaves a
thread as it is or suspended no more (`Target.Spares`).
-/

namespace Pausepoint

/-- The variables of a frame, given the contents of scopes; a frame without a scope has none. -/
def Frame.variables (bindings : ScopeId → Entries) (f : Frame) : List Variable :=
  match f.scope with
  | some scope => visible (bindings scope)
  | none => []

/-! ### Published frames -/

/-- A published frame is the given one, and what was read of it is what its scope contains. -/
structure PublishedFrame.Shows (p : PublishedFrame) (frame : Frame) (bindings : ScopeId → Entries) :
    Prop where
  same : p.frame = frame
  cache : p.dirty = false → p.cache = frame.variables bindings

namespace PublishedFrame.Shows

variable {p : PublishedFrame} {frame : Frame} {bindings bindings' : ScopeId → Entries}

/-- **Reading gives what the scope contains**, and changes nothing that is shown. -/
theorem read (h : p.Shows frame bindings) :
    (p.readVariables bindings).1 = frame.variables bindings ∧
      (p.readVariables bindings).2.Shows frame bindings := by
  obtain ⟨rfl, hcache⟩ := h
  unfold readVariables
  split
  · exact ⟨rfl, rfl, fun _ => rfl⟩
  · next hclean =>
      have hread := hcache (by simpa using hclean)
      exact ⟨hread, rfl, hcache⟩

theorem of_same (h : p.Shows frame bindings)
    (hsame : ∀ scope, frame.scope = some scope → bindings' scope = bindings scope) :
    p.Shows frame bindings' := by
  refine ⟨h.same, fun hclean => (h.cache hclean).trans ?_⟩
  unfold Frame.variables
  split
  · next scope hscope => rw [hsame scope hscope]
  · rfl

end PublishedFrame.Shows

/-! ### Threads -/

namespace DebugThread

/-- The stack of a thread is made of the given frames. -/
def Shows (t : DebugThread) (frames : List Frame) (bindings : ScopeId → Entries) : Prop :=
  List.Forall₂ (fun slot frame => ∃ p, t.published[slot]? = some p ∧ p.Shows frame bindings) t.stack frames

variable {t next : DebugThread} {frames : List Frame} {bindings bindings' : ScopeId → Entries}

/-- **A new stack is shown.** Nothing was read of its frames. -/
theorem shows_replaceFrames (h : t.replaceFrames frames = .ok next) : next.Shows frames bindings := by
  unfold replaceFrames at h
  split at h
  · cases h
  · obtain rfl := Except.ok.inj h
    unfold Shows publish
    dsimp only
    rw [List.append_nil, List.forall₂_iff_get]
    refine ⟨by simp, fun place hplace hframe => ⟨{ frame := frames[place] }, ?_, rfl, nofun⟩⟩
    simp [Array.getElem?_append]

namespace Shows

theorem of_same (h : t.Shows frames bindings)
    (hsame : ∀ frame ∈ frames, ∀ scope, frame.scope = some scope → bindings' scope = bindings scope) :
    t.Shows frames bindings' := by
  unfold Shows at h ⊢
  rw [List.forall₂_iff_get] at h ⊢
  refine ⟨h.1, fun place hplace hframe => ?_⟩
  obtain ⟨p, hp, hshows⟩ := h.2 place hplace hframe
  exact ⟨p, hp, hshows.of_same (hsame _ (List.get_mem _ _))⟩

/-- **Reading a frame** of the thread leaves its stack as it is shown. -/
theorem readVariables (h : t.Shows frames bindings) (slot : Nat) :
    (t.readVariables bindings slot).2.Shows frames bindings := by
  unfold DebugThread.readVariables
  split
  · exact h
  · next q hq =>
      refine List.Forall₂.imp (fun place frame hplace => ?_) h
      obtain ⟨p, hp, hshows⟩ := hplace
      by_cases hslot : slot = place
      · subst hslot
        obtain rfl := Option.some.inj (hp.symm.trans hq)
        exact ⟨_, by simp [Array.getElem?_modify, hp], hshows.read.2⟩
      · exact ⟨p, by simp [Array.getElem?_modify, hslot, hp], hshows⟩

end Shows

end DebugThread

/-! ### Targets -/

namespace Target

/-- If a thread is suspended, its stack is made of the frames among the given ones that are shown. -/
def Displays (t : Target) (id : ThreadId) (frames : List Frame) (bindings : ScopeId → Entries) : Prop :=
  ∀ thread, t.thread? id = some thread → thread.state = .suspended →
    thread.Shows (t.shown frames) bindings

theorem mem_of_mem_shown {t : Target} {frame : Frame} {frames : List Frame} (h : frame ∈ t.shown frames) :
    frame ∈ frames := by
  unfold shown at h
  split at h
  · exact h
  · exact List.mem_of_mem_filter h

/-- A change of a target leaves a thread as it is, or it is not suspended afterwards. -/
structure Spares (t t' : Target) (id : ThreadId) : Prop where
  options : t'.options = t.options
  thread : t'.thread? id = t.thread? id ∨ t'.stateOf id ≠ some .suspended

variable {t t' : Target} {id : ThreadId}

theorem Displays.of_not_suspended (h : t.stateOf id ≠ some .suspended) (frames : List Frame)
    (bindings : ScopeId → Entries) : t.Displays id frames bindings := by
  intro thread hthread hstate
  rw [stateOf, hthread, Option.map_some, hstate] at h
  exact absurd rfl h

namespace Spares

theorem refl (t : Target) (id : ThreadId) : t.Spares t id :=
  ⟨rfl, .inl rfl⟩

theorem of_not_suspended (h : t'.stateOf id ≠ some .suspended) (hoptions : t'.options = t.options) :
    t.Spares t' id :=
  ⟨hoptions, .inr h⟩

theorem stateOf (h : t.Spares t' id) (hs : t'.stateOf id = some .suspended) :
    t.stateOf id = some .suspended := by
  rcases h.thread with hsame | hnot
  · rwa [Target.stateOf, hsame] at hs
  · exact absurd hs hnot

theorem displays (h : t.Spares t' id) {frames : List Frame} {bindings : ScopeId → Entries}
    (hd : t.Displays id frames bindings) : t'.Displays id frames bindings := by
  rcases h.thread with hsame | hnot
  · intro thread hthread hstate
    rw [shown, h.options]
    exact hd thread (hsame ▸ hthread) hstate
  · exact .of_not_suspended hnot _ _

end Spares

/-- The end of a session leaves nobody suspended. -/
theorem spares_terminate (t : Target) (fault : Option Fault) (id : ThreadId) :
    t.Spares (t.terminate fault).2 id := by
  unfold terminate
  split
  · exact .refl t id
  · refine .of_not_suspended ?_ rfl
    have hget := Registry.get?_terminateAll t.registry id
    show Option.map DebugThread.state (t.registry.terminateAll.2.get? id) ≠ _
    rw [hget]
    cases t.registry.get? id with
    | none => simp
    | some thread => simp [DebugThread.terminate]

/-- **A report** leaves a thread alone, unless it is a pause of the thread or a stack of it. -/
theorem spares_report (hr : t.registry.Indexed) (store : BreakpointStore) {n : Notification}
    (hpause : n.thread? = some id → n.isPause = false) (hstack : ∀ frames, n ≠ .stackFrames id frames) :
    t.Spares (t.handleNotification store n).2 id := by
  have hoptions := options_handleNotification t store n
  by_cases hid : n.thread? = some id
  -- A report about the thread itself is neither a pause nor a stack, so it can only let the thread go on.
  · cases hs : t.state with
    | terminated =>
        rw [handleNotification_of_terminated hs]
        exact .refl t id
    | notStarted =>
        rw [handleNotification_of_notStarted hs store hid]
        exact .refl t id
    | running =>
        cases n with
        | engineStarted | engineTerminated => cases hid
        | scriptReady | suspended => cases hpause hid
        | stackFrames other frames =>
            obtain rfl := Option.some.inj hid
            exact absurd rfl (hstack frames)
        | resumed other mode =>
            obtain rfl := Option.some.inj hid
            simp only [handleNotification, hs, resumed]
            split
            · exact .refl t _
            · next before hbefore =>
                split
                · exact .refl t _
                · next next hresumed =>
                    have hm := moves_of_transition hr hbefore
                      (DebugThread.noteResumed_cases hresumed).1
                    refine .of_not_suspended ?_ hm.options
                    have hstate : next.state = mode.resultingState := by
                      unfold DebugThread.noteResumed at hresumed
                      split at hresumed <;> cases hresumed <;> rfl
                    rw [hm.stateOf_self, hstate]
                    exact fun h => mode.runs_resultingState.ne_suspended (Option.some.inj h)
  · cases hother : n.thread? with
    | some other =>
        have hne : id ≠ other := fun he => hid (he ▸ hother)
        exact ⟨hoptions, .inl ((report_frame hr store hother).2.2 id hne)⟩
    | none =>
        cases n with
        | scriptReady | stackFrames | suspended | resumed => cases hother
        | engineStarted =>
            refine ⟨hoptions, .inl ?_⟩
            cases hs : t.state <;> simp [handleNotification, hs, thread?]
        | engineTerminated =>
            cases hs : t.state with
            | terminated =>
                rw [handleNotification_of_terminated hs]
                exact .refl t id
            | notStarted | running => simpa [handleNotification, hs] using t.spares_terminate none id

/-- **A command** leaves a thread alone, unless it lets the thread go on. -/
theorem spares_command (hr : t.registry.Indexed) {c : Command}
    (hresume : ∀ mode, c = .resume id mode → t.stateOf id ≠ some .suspended) :
    t.Spares (t.handleCommand c).2 id := by
  have hoptions := options_handleCommand t c
  by_cases hc : c = .disconnect
  · subst hc
    unfold handleCommand
    split
    · exact .refl t id
    · exact t.spares_terminate none id
  · by_cases hid : ∃ mode, c = .resume id mode
    · obtain ⟨mode, rfl⟩ := hid
      have hnone := handleCommand_resume_of_ne mode (hresume mode rfl)
      refine ⟨hoptions, .inl ?_⟩
      rw [hnone]
    · exact ⟨hoptions, .inl ((command_other hr hc).2.2 id fun mode he => hid ⟨mode, he⟩)⟩

/-- So does one that lets the thread go on, which is not suspended after that. -/
theorem spares_handleCommand (hr : t.registry.Indexed) (c : Command) (id : ThreadId) :
    t.Spares (t.handleCommand c).2 id := by
  by_cases hover : t.state = .terminated
  · rw [handleCommand_of_terminated hover]
    exact .refl t id
  · by_cases hgo : ∃ mode, c = .resume id mode ∧ t.stateOf id = some .suspended
    · obtain ⟨mode, rfl, hsuspended⟩ := hgo
      obtain ⟨next, hm, hstate, -⟩ := moves_of_resume hr (by simpa [isTerminated] using hover) mode hsuspended
      refine .of_not_suspended ?_ (options_handleCommand t _)
      rw [hm.stateOf_self, hstate]
      exact fun h => mode.runs_resultingState.ne_suspended (Option.some.inj h)
    · exact spares_command hr fun mode hc hsuspended => hgo ⟨mode, hc, hsuspended⟩

/-- **A pause that is taken up is displayed**, with the frames that came with it. -/
theorem displays_suspended (hr : t.registry.Indexed) (store : BreakpointStore) (frames : List Frame)
    (reason : Reason) (bindings : ScopeId → Entries) (h : t.stateOf id ≠ some .suspended) :
    (t.handleNotification store (.suspended id frames reason)).2.Displays id frames bindings := by
  cases hs : t.state with
  | terminated =>
      rw [handleNotification_of_terminated hs]
      exact .of_not_suspended h _ _
  | notStarted =>
      rw [handleNotification_of_notStarted hs store rfl]
      exact .of_not_suspended h _ _
  | running =>
      simp only [handleNotification, hs, suspended]
      split
      · next next htrans =>
          obtain ⟨before, hbefore, hsuspend⟩ := exists_of_transition htrans
          obtain ⟨hid, hstate, -, -⟩ := DebugThread.suspend_cases hsuspend
          obtain ⟨shown, hframes, hshown, -⟩ :=
            DebugThread.replaceFrames_of_ne (t := next) (by simp [hstate]) (t.shown frames)
          rw [hframes]
          have hm := moves_of_transition hr hbefore (hshown.trans hid)
          intro thread hthread _
          obtain rfl := Option.some.inj (hm.self.symm.trans hthread)
          exact DebugThread.shows_replaceFrames hframes
      · exact .of_not_suspended h _ _

/-- **Reading frames** of any thread leaves what is displayed, if the scopes of its frames are read as they
are. -/
theorem Displays.readVariables {s : Session} (hr : s.target.registry.Indexed) {frames : List Frame}
    {bindings bindings' : ScopeId → Entries} (h : s.target.Displays id frames bindings)
    (hsame : ∀ frame ∈ frames, ∀ scope, frame.scope = some scope → bindings' scope = bindings scope)
    (other : ThreadId) (slot : Nat) :
    (s.readVariables bindings' other slot).2.target.Displays id frames bindings := by
  unfold Session.readVariables
  split
  · exact h
  · next before hbefore =>
      have hid : (before.readVariables bindings' slot).2.id = before.id := by
        unfold DebugThread.readVariables
        split <;> rfl
      have hstate : (before.readVariables bindings' slot).2.state = before.state := by
        unfold DebugThread.readVariables
        split <;> rfl
      have hm := moves_of_transition hr hbefore hid
      intro thread hthread hsus
      by_cases he : id = other
      · subst he
        obtain rfl := Option.some.inj (hm.self.symm.trans hthread)
        have hread := ((h before hbefore (hstate ▸ hsus)).of_same fun frame hframe =>
          hsame frame (mem_of_mem_shown hframe)).readVariables slot
        exact hread.of_same fun frame hframe scope hscope =>
          (hsame frame (mem_of_mem_shown hframe) scope hscope).symm
      · exact h thread ((hm.others id he).symm.trans hthread) hsus

end Target

end Pausepoint
