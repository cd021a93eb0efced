import Pausepoint.Proofs.Session.ThreadReports
import Pausepoint.Session.Dispatch

/-!
# Pausepoint.Proofs.Session.Calls

The control side as one party.

Whatever a client asks of a session, the call itself only queues commands: threads change
when a command is dispatched, and the gate never hears of the control side.
`Session.Commanded` says so once; `ControlCall.commanded` proves it of every call but
`cancel`, which stops the queue.
-/

namespace Pausepoint

/-- What a client may call. -/
inductive ControlCall
  | resume (id : ThreadId) (mode : Mode)
  /-- Let every suspended thread go on. -/
  | resumeAll
  /-- Ask the scripts to end. -/
  | terminate
  /-- Detach. -/
  | disconnect
  /-- Set a breakpoint. -/
  | addBreakpoint (b : Breakpoint)
  /-- Take a breakpoint away. -/
  | removeBreakpoint (b : Breakpoint)
  /-- Install a breakpoint in one script. -/
  | setBreakpoint (script : ScriptId) (b : Breakpoint)
  /-- Read the variables of a published frame. -/
  | readVariables (bindings : ScopeId → Entries) (id : ThreadId) (slot : Nat)
  /-- Stop the dispatcher. -/
  | cancel

/-- The session after a call. -/
def ControlCall.run (s : Session) : ControlCall → Session
  | .resume id mode => (s.resume id mode).2
  | .resumeAll => s.resumeAll.2
  | .terminate => s.terminate.2
  | .disconnect => s.disconnect.2
  | .addBreakpoint b => (s.addBreakpoint b).2
  | .removeBreakpoint b => (s.removeBreakpoint b).2
  | .setBreakpoint script b => (s.setBreakpoint script b).2
  | .readVariables bindings id slot => (s.readVariables bindings id slot).2
  | .cancel => s.cancel

/-! ### Targets that agree on every thread -/

/-- What a session decides by, of a thread: its state and why it last stopped. -/
def DebugThread.standing (t : DebugThread) : ThreadState × Option Reason :=
  (t.state, t.lastSuspend)

namespace Target

/-- The state of a thread and why it last stopped. -/
def standing (t : Target) (id : ThreadId) : Option (ThreadState × Option Reason) :=
  (t.thread? id).map DebugThread.standing

theorem stateOf_eq_standing (t : Target) (id : ThreadId) :
    t.stateOf id = (t.standing id).map Prod.fst := by
  simp only [stateOf, standing, Option.map_map]
  rfl

theorem Moves.standing_self {t t' : Target} {id : ThreadId} {next : DebugThread}
    (h : t.Moves t' id next) : t'.standing id = some (next.state, next.lastSuspend) := by
  simp [standing, h.self, DebugThread.standing]

theorem Moves.standing_of_ne {t t' : Target} {id : ThreadId} {next : DebugThread}
    (h : t.Moves t' id next) {other : ThreadId} (hne : other ≠ id) :
    t'.standing other = t.standing other := by
  simp [standing, h.others other hne]

/-- Two targets that differ at most in what was read of published frames. -/
structure Resembles (t t' : Target) : Prop where
  state : t'.state = t.state
  options : t'.options = t.options
  indexed : t.registry.Indexed → t'.registry.Indexed
  standing : t.registry.Indexed → ∀ id, t'.standing id = t.standing id

theorem Resembles.refl (t : Target) : t.Resembles t :=
  ⟨rfl, rfl, id, fun _ _ => rfl⟩

theorem Resembles.stateOf {t t' : Target} (h : t.Resembles t') (hr : t.registry.Indexed)
    (id : ThreadId) : t'.stateOf id = t.stateOf id := by
  rw [stateOf_eq_standing, stateOf_eq_standing, h.standing hr]

/-- A thread with the same standing may be stored in place of the old one. -/
theorem resembles_setThread {t : Target} {thread next : DebugThread} {id : ThreadId}
    (h : t.thread? id = some thread) (hid : next.id = thread.id)
    (hsame : next.standing = thread.standing) : t.Resembles (t.setThread next) where
  state := rfl
  options := rfl
  indexed hr := Registry.indexed_update hr _ fun _ _ => rfl
  standing hr other := by
    have hthread : thread.id = id := id_of_thread? hr h
    have hm := moves_setThread hr next (by rw [hid, hthread]; exact h)
    unfold standing
    by_cases hne : other = next.id
    · rw [hne, hm.self, hid, hthread, h]
      exact congrArg some hsame
    · rw [hm.others other hne]

end Target

/-! ### Sessions after a call -/

namespace Session

/-- All that a call did was to queue commands. -/
structure Commanded (s s' : Session) (cs : List Command) : Prop where
  gate : s'.gate = s.gate
  worker : s'.worker = s.worker
  target : s.target.Resembles s'.target
  queue : s'.queue = { s.queue with events := s.queue.events ++ cs.map .command }
  closed : s.queue.closed = true → cs = []

namespace Commanded

variable {s s' s'' : Session} {cs ds : List Command}

theorem nil (hg : s'.gate = s.gate) (hw : s'.worker = s.worker) (ht : s.target.Resembles s'.target)
    (hq : s'.queue = s.queue) : s.Commanded s' [] :=
  ⟨hg, hw, ht, by simp [hq], fun _ => rfl⟩

theorem refl (s : Session) : s.Commanded s [] :=
  .nil rfl rfl (.refl _) rfl

/-- Other breakpoints, or the wish to end, make no difference before a call. -/
theorem of_same (h : s.Commanded s' cs) {s₀ : Session} (hg : s.gate = s₀.gate)
    (hw : s.worker = s₀.worker) (ht : s.target = s₀.target) (hq : s.queue = s₀.queue) :
    s₀.Commanded s' cs :=
  ⟨h.gate.trans hg, h.worker.trans hw, ht ▸ h.target, hq ▸ h.queue, hq ▸ h.closed⟩

theorem trans (h : s.Commanded s' cs) (h' : s'.Commanded s'' ds) (ht : s''.target = s'.target) :
    s.Commanded s'' (cs ++ ds) where
  gate := h'.gate.trans h.gate
  worker := h'.worker.trans h.worker
  target := ht ▸ h.target
  queue := by simp [h'.queue, h.queue]
  closed hc := by
    have hc' : s'.queue.closed = true := by rw [h.queue]; exact hc
    rw [h.closed hc, h'.closed hc']
    rfl

theorem events (h : s.Commanded s' cs) : s'.queue.events = s.queue.events ++ cs.map .command := by
  rw [h.queue]

end Commanded

/-! ### Orders -/

/-- Queueing a command. -/
theorem commanded_submit (s : Session) (c : Command) :
    ∃ cs : List Command, cs ⊆ [c] ∧ s.Commanded (s.submit (.command c)).2 cs ∧
      (s.submit (.command c)).2.target = s.target := by
  unfold submit EventQueue.submit
  cases hc : s.queue.closed with
  | true => exact ⟨[], by simp, .refl s, rfl⟩
  | false =>
      by_cases hd : (s.queue.dedupe && decide (Event.command c ∈ s.queue.events)) = true
      · exact ⟨[], by simp, by simpa [hd] using Commanded.refl s, by simp [hd]⟩
      · refine ⟨[c], List.Subset.refl _, ?_, by simp [hd]⟩
        simp only [Bool.false_eq_true, if_false, if_neg hd]
        exact ⟨rfl, rfl, .refl _, by simp [hc], by simp [hc]⟩

/-- A command that an open queue is given waits there, unless it did so before. -/
theorem submit_cases {s : Session} (hopen : s.queue.closed = false) (c : Command) :
    (s.queue.dedupe = true ∧ .command c ∈ s.queue.events ∧ (s.submit (.command c)).2 = s) ∨
      (s.submit (.command c)).2 =
        { s with queue := { s.queue with events := s.queue.events ++ [.command c] } } := by
  unfold submit EventQueue.submit
  rw [if_neg (by simp [hopen])]
  by_cases hd : (s.queue.dedupe && decide (Event.command c ∈ s.queue.events)) = true
  · rw [if_pos hd]
    rw [Bool.and_eq_true, decide_eq_true_eq] at hd
    exact .inl ⟨hd.1, hd.2, rfl⟩
  · rw [if_neg hd]
    exact .inr rfl

/-- All that waited before still does. -/
theorem mem_submit {s : Session} (hopen : s.queue.closed = false) (c : Command) :
    (s.submit (.command c)).2.worker = s.worker ∧
      (∀ e ∈ s.queue.events, e ∈ (s.submit (.command c)).2.queue.events) ∧
      .command c ∈ (s.submit (.command c)).2.queue.events := by
  rcases submit_cases hopen c with ⟨-, hmem, hs⟩ | hs
  · rw [hs]
    exact ⟨rfl, fun _ h => h, hmem⟩
  · rw [hs]
    exact ⟨rfl, fun _ h => List.mem_append_left _ h, by simp⟩

theorem commanded_order (s : Session) (c : Command) :
    ∃ cs : List Command, cs ⊆ [c] ∧ s.Commanded (s.order c).2 cs ∧ (s.order c).2.target = s.target := by
  have horder : (s.order c).2 = (s.submit (.command c)).2 := by
    unfold order
    split <;> simp [*]
  rw [horder]
  exact s.commanded_submit c

theorem commanded_orderAll (s : Session) (cs : List Command) :
    ∃ ds : List Command, ds ⊆ cs ∧ s.Commanded (s.orderAll cs).2 ds ∧
      (s.orderAll cs).2.target = s.target := by
  induction cs generalizing s with
  | nil => exact ⟨[], List.Subset.refl _, .refl s, rfl⟩
  | cons c rest ih =>
      obtain ⟨ds, hds, hone, ht⟩ := s.commanded_order c
      unfold orderAll
      cases horder : s.order c with
      | mk reply next =>
          rw [horder] at hone ht
          cases reply with
          | error cause =>
              exact ⟨ds, List.Subset.trans hds (by simp), hone, ht⟩
          | ok =>
              obtain ⟨es, hes, hrest, ht'⟩ := ih next
              refine ⟨ds ++ es, ?_, hone.trans hrest ht', ht'.trans ht⟩
              exact List.append_subset.mpr
                ⟨List.Subset.trans hds (by simp), List.Subset.trans hes (List.subset_cons_self c rest)⟩

/-! ### The calls -/

theorem commanded_resume (s : Session) (id : ThreadId) (mode : Mode) :
    ∃ cs : List Command, cs ⊆ [.resume id mode] ∧ s.Commanded (s.resume id mode).2 cs := by
  unfold resume
  split
  · exact ⟨[], by simp, .refl s⟩
  · split
    · exact ⟨[], by simp, .refl s⟩
    · split
      · obtain ⟨cs, hcs, h, -⟩ := s.commanded_order (.resume id mode)
        exact ⟨cs, hcs, h⟩
      · exact ⟨[], by simp, .refl s⟩

theorem commanded_resumeAll (s : Session) :
    ∃ cs : List Command, (∀ c ∈ cs, ∃ id, c = .resume id .clientRequest) ∧
      s.Commanded s.resumeAll.2 cs := by
  unfold resumeAll
  split
  · exact ⟨[], by simp, .refl s⟩
  · obtain ⟨cs, hcs, h, -⟩ :=
      s.commanded_orderAll (s.suspendedThreads.map fun id => .resume id .clientRequest)
    refine ⟨cs, fun c hc => ?_, ?_⟩
    · obtain ⟨id, -, rfl⟩ := List.mem_map.mp (hcs hc)
      exact ⟨id, rfl⟩
    · simp only
      split <;> simp_all

theorem commanded_terminate (s : Session) :
    ∃ cs : List Command, cs ⊆ [.terminate] ∧ s.Commanded s.terminate.2 cs := by
  unfold terminate
  split
  · exact ⟨[], by simp, .refl s⟩
  · obtain ⟨cs, hcs, h, -⟩ := s.commanded_order .terminate
    refine ⟨cs, hcs, ?_⟩
    split
    · next horder =>
        rw [horder] at h
        exact ⟨h.gate, h.worker, h.target, h.queue, h.closed⟩
    · next horder => rwa [horder] at h

theorem commanded_disconnect (s : Session) :
    ∃ cs : List Command, cs ⊆ [.disconnect] ∧ s.Commanded s.disconnect.2 cs := by
  unfold disconnect
  split
  · exact ⟨[], by simp, .refl s⟩
  · obtain ⟨cs, hcs, h, -⟩ := s.commanded_order .disconnect
    exact ⟨cs, hcs, h⟩

/-- A change of the breakpoints reaches the scripts on stacks as commands. -/
theorem commanded_forward (s : Session) (b : Breakpoint) (action : BreakpointAction)
    (breakpoints : BreakpointStore) :
    ∃ cs : List Command, (∀ c ∈ cs, ∃ script b action, c = .setBreakpoint script b action) ∧
      s.Commanded (orderAll { s with breakpoints } (s.forwardCommands b action)).2 cs := by
  obtain ⟨cs, hcs, h, -⟩ :=
    commanded_orderAll { s with breakpoints } (s.forwardCommands b action)
  refine ⟨cs, fun c hc => ?_, h.of_same rfl rfl rfl rfl⟩
  obtain ⟨script, -, rfl⟩ := List.mem_map.mp (hcs hc)
  exact ⟨script, b, action, rfl⟩

theorem commanded_addBreakpoint (s : Session) (b : Breakpoint) :
    ∃ cs : List Command, (∀ c ∈ cs, ∃ script b action, c = .setBreakpoint script b action) ∧
      s.Commanded (s.addBreakpoint b).2 cs := by
  unfold addBreakpoint
  split
  · exact ⟨[], by simp, .refl s⟩
  · exact s.commanded_forward b .add _

theorem commanded_removeBreakpoint (s : Session) (b : Breakpoint) :
    ∃ cs : List Command, (∀ c ∈ cs, ∃ script b action, c = .setBreakpoint script b action) ∧
      s.Commanded (s.removeBreakpoint b).2 cs := by
  unfold removeBreakpoint
  split
  · exact ⟨[], by simp, .refl s⟩
  · exact s.commanded_forward b .remove _

theorem commanded_setBreakpoint (s : Session) (script : ScriptId) (b : Breakpoint) :
    ∃ cs : List Command, cs ⊆ [.setBreakpoint script b .add] ∧
      s.Commanded (s.setBreakpoint script b).2 cs := by
  obtain ⟨cs, hcs, h, -⟩ := s.commanded_order (.setBreakpoint script b .add)
  exact ⟨cs, hcs, h⟩

theorem commanded_readVariables (s : Session) (bindings : ScopeId → Entries) (id : ThreadId)
    (slot : Nat) : s.Commanded (s.readVariables bindings id slot).2 [] := by
  unfold readVariables
  split
  · exact .refl s
  · next thread hthread =>
      have hsame : (thread.readVariables bindings slot).2.standing = thread.standing ∧
          (thread.readVariables bindings slot).2.id = thread.id := by
        unfold DebugThread.readVariables
        split <;> exact ⟨rfl, rfl⟩
      exact .nil rfl rfl (Target.resembles_setThread hthread hsame.2 hsame.1) rfl

end Session

/-- Every call but `cancel` only queues commands. -/
theorem ControlCall.commanded (s : Session) (c : ControlCall) (hc : c ≠ .cancel) :
    ∃ cs : List Command, s.Commanded (c.run s) cs := by
  cases c with
  | resume id mode =>
      obtain ⟨cs, -, h⟩ := s.commanded_resume id mode
      exact ⟨cs, h⟩
  | resumeAll =>
      obtain ⟨cs, -, h⟩ := s.commanded_resumeAll
      exact ⟨cs, h⟩
  | terminate =>
      obtain ⟨cs, -, h⟩ := s.commanded_terminate
      exact ⟨cs, h⟩
  | disconnect =>
      obtain ⟨cs, -, h⟩ := s.commanded_disconnect
      exact ⟨cs, h⟩
  | addBreakpoint b =>
      obtain ⟨cs, -, h⟩ := s.commanded_addBreakpoint b
      exact ⟨cs, h⟩
  | removeBreakpoint b =>
      obtain ⟨cs, -, h⟩ := s.commanded_removeBreakpoint b
      exact ⟨cs, h⟩
  | setBreakpoint script b =>
      obtain ⟨cs, -, h⟩ := s.commanded_setBreakpoint script b
      exact ⟨cs, h⟩
  | readVariables bindings id slot => exact ⟨[], s.commanded_readVariables bindings id slot⟩
  | cancel => exact absurd rfl hc

end Pausepoint
