import Pausepoint.Proofs.Execution
import Pausepoint.Proofs.Session.Concord
import Pausepoint.Proofs.Session.Roster

/-!
# Pausepoint.Proofs.Session.Proceedings

A session in its smallest steps, with client code that may fail.

`Session.Proceeds` is the step relation: anyone reports something, gives up on a pause, or makes a call
of the control side; the dispatcher takes an event, or does one task of its agenda; and where client
code runs in a task, it may fail. Nothing is said of the order.

* `Session.Deed` — what happened in a step;
* `Session.heard` — what the listener was told, by the deeds so far;
* `toldBy` — what the listener will be told by the tasks of an agenda.
-/

namespace Pausepoint

/-- What the listener is told by a task, if anything. -/
def Task.told? : Task → Option Callback
  | .callback c | .lastCallback c => some c
  | _ => none

/-- What the listener is told by some tasks, in order. -/
def toldBy (tasks : List Task) : List Callback :=
  tasks.filterMap Task.told?

@[simp] theorem toldBy_nil : toldBy [] = [] := rfl

@[simp] theorem toldBy_append (tasks later : List Task) :
    toldBy (tasks ++ later) = toldBy tasks ++ toldBy later :=
  List.filterMap_append

@[simp] theorem toldBy_callbacks (cs : List Callback) : toldBy (cs.map .callback) = cs := by
  rw [toldBy, List.filterMap_map]
  exact List.filterMap_some

@[simp] theorem toldBy_lastCallbacks (cs : List Callback) : toldBy (cs.map .lastCallback) = cs := by
  rw [toldBy, List.filterMap_map]
  exact List.filterMap_some

@[simp] theorem toldBy_followUps (cs : List Command) : toldBy (cs.map .followUp) = [] := by
  rw [toldBy, List.filterMap_map]
  exact List.filterMap_eq_nil_iff.mpr fun _ _ => rfl

@[simp] theorem toldBy_closing (exit : Exit) : toldBy (closing exit) = [] := rfl

/-- A task in front tells what it tells before the others. -/
theorem toldBy_cons (task : Task) (rest : List Task) :
    toldBy (task :: rest) = task.told?.toList ++ toldBy rest := by
  unfold toldBy
  rw [List.filterMap_cons]
  cases task.told? <;> rfl

/-- The tasks of a report tell what its effects say. -/
theorem toldBy_notificationTasks (n : Notification) (effects : Effects) :
    toldBy (notificationTasks n effects) = effects.callbacks := by
  unfold notificationTasks
  split <;> simp

/-- So do those of a command. -/
theorem toldBy_commandTasks (c : Command) (effects : Effects) :
    toldBy (commandTasks c effects) = effects.callbacks := by
  have hrelease : toldBy (releaseTasks c) = [] := by
    cases c <;> rfl
  unfold commandTasks
  split
  · split <;> simp [hrelease, toldBy_cons, Task.told?]
  · simp

namespace Session

/-! ### Deeds -/

/-- What happened in a step. -/
inductive Deed
  /-- Someone else than the dispatcher did something. -/
  | outside
  /-- The dispatcher took an event, or began to close. -/
  | take
  /-- The dispatcher did a task. -/
  | task (task : Task)
  /-- The dispatcher began a task, and client code failed in it. -/
  | failure (task : Task) (message : String)
  deriving DecidableEq

/-- What the listener is told in a step. A listener that fails has been told before. -/
def Deed.told? : Deed → Option Callback
  | .task t | .failure t _ => t.told?
  | .outside | .take => none

/-- What the listener was told so far. -/
def heard (trace : List Deed) : List Callback :=
  trace.filterMap Deed.told?

theorem heard_append (trace later : List Deed) : heard (trace ++ later) = heard trace ++ heard later :=
  List.filterMap_append

@[simp] theorem heard_snoc (trace : List Deed) (deed : Deed) :
    heard (trace ++ [deed]) = heard trace ++ deed.told?.toList := by
  rw [heard_append]
  cases h : deed.told? <;> simp [heard, h]

/-- One step of a session: an engine notifies it or gives a pause up, the control side makes a call, or the
dispatcher takes the next event or does its next task, in which client code may fail. -/
inductive Proceeds : Session → Deed → Session → Prop
  | notify (s : Session) (n : Notification) : Proceeds s .outside (s.notify n).2
  | abandonPause (s : Session) (thread : ThreadId) : Proceeds s .outside (s.abandonPause thread).2
  | call (s : Session) (c : ControlCall) : Proceeds s .outside (c.run s)
  | take {s s' : Session} (h : s.take? = some s') : Proceeds s .take s'
  | perform {s s' : Session} {task : Task} (h : s.perform? = some (task, s')) :
      Proceeds s (.task task) s'
  | fail {s s' : Session} {task : Task} (h : s.perform? = some (task, s'))
      (hfatal : isFatal task = true) (message : String) :
      Proceeds s (.failure task message) (s'.fail message)

/-! ### What the others may do -/

theorem target_order (s : Session) (c : Command) : (s.order c).2.target = s.target := by
  obtain ⟨-, -, -, h⟩ := s.commanded_order c
  exact h

theorem target_orderAll (s : Session) (cs : List Command) : (s.orderAll cs).2.target = s.target := by
  obtain ⟨-, -, -, h⟩ := s.commanded_orderAll cs
  exact h

theorem rereads_readVariables (s : Session) (bindings : ScopeId → Entries) (id : ThreadId) (slot : Nat) :
    s.target.Rereads (s.readVariables bindings id slot).2.target := by
  unfold readVariables
  split
  · exact .refl _
  · next thread hthread =>
      refine Target.rereads_setThread hthread ?_ ?_ (thread.sheets_readVariables bindings slot)
      all_goals
        unfold DebugThread.readVariables
        split <;> rfl

/-- A call of the control side changes nothing of the target, unless frames are read. -/
theorem target_call (s : Session) {c : ControlCall}
    (hc : ∀ bindings id slot, c ≠ .readVariables bindings id slot) : (c.run s).target = s.target := by
  cases c with
  | resume id mode =>
      unfold ControlCall.run resume
      dsimp only
      split
      · rfl
      · split
        · rfl
        · split
          · exact s.target_order _
          · rfl
  | resumeAll =>
      have htarget := s.target_orderAll (s.suspendedThreads.map fun id => .resume id .clientRequest)
      unfold ControlCall.run resumeAll
      dsimp only
      split
      · rfl
      · split <;> simp_all
  | terminate =>
      have htarget := s.target_order .terminate
      unfold ControlCall.run terminate
      dsimp only
      split
      · rfl
      · split <;> simp_all
  | disconnect =>
      unfold ControlCall.run disconnect
      dsimp only
      split
      · rfl
      · exact s.target_order _
  | addBreakpoint b =>
      unfold ControlCall.run addBreakpoint
      dsimp only
      split
      · rfl
      · exact target_orderAll _ _
  | removeBreakpoint b =>
      unfold ControlCall.run removeBreakpoint
      dsimp only
      split
      · rfl
      · exact target_orderAll _ _
  | setBreakpoint script b => exact s.target_order _
  | readVariables bindings id slot => exact absurd rfl (hc bindings id slot)
  | cancel => rfl

/-- What is read of frames is all that a call of the control side changes of the target. -/
theorem rereads_call (s : Session) (c : ControlCall) : s.target.Rereads (c.run s).target := by
  by_cases hc : ∃ bindings id slot, c = .readVariables bindings id slot
  · obtain ⟨bindings, id, slot, rfl⟩ := hc
    exact s.rereads_readVariables bindings id slot
  · rw [s.target_call fun bindings id slot he => hc ⟨bindings, id, slot, he⟩]
    exact .refl _

theorem worker_call (s : Session) (c : ControlCall) : (c.run s).worker = s.worker := by
  by_cases hc : c = .cancel
  · subst hc
    rfl
  · obtain ⟨cs, h⟩ := ControlCall.commanded s c hc
    exact h.worker

/-- **Whatever the others do**, the dispatcher stays where it is, and so does the target but for what
is read of frames. -/
theorem Proceeds.outside {s s' : Session} (h : Proceeds s .outside s') :
    s.target.Rereads s'.target ∧ s'.worker = s.worker := by
  cases h with
  | notify n =>
      obtain ⟨ht, hw, -⟩ := s.notify_frame n
      exact ⟨ht ▸ .refl _, hw⟩
  | abandonPause => exact ⟨.refl _, rfl⟩
  | call c => exact ⟨s.rereads_call c, s.worker_call c⟩

/-! ### The dispatcher by itself -/

/-- The session after one step of the dispatcher, if it can make one. -/
def stepped (s : Session) : Session :=
  match s.perform? with
  | some (_, s') => s'
  | none => s.take?.getD s

/-- **The dispatcher makes steps of its own**, in which nobody fails. -/
theorem execution_of_stepped {start s : Session} {trace : List Deed}
    (h : Execution Proceeds start trace s) (count : Nat) :
    ∃ deeds, Execution Proceeds start (trace ++ deeds) (Nat.repeat stepped count s) ∧
      ∀ task message, .failure task message ∉ deeds := by
  induction count with
  | zero =>
      refine ⟨[], ?_, fun _ _ => List.not_mem_nil⟩
      rw [List.append_nil]
      exact h
  | succ count ih =>
      obtain ⟨deeds, hrun, hnone⟩ := ih
      show ∃ deeds, Execution Proceeds start (trace ++ deeds)
        (stepped (Nat.repeat stepped count s)) ∧ _
      generalize Nat.repeat stepped count s = last at hrun ⊢
      have hsnoc {deed : Deed} {next : Session} (hstep : Proceeds last deed next)
          (hdeed : ∀ task message, deed ≠ .failure task message) :
          ∃ deeds, Execution Proceeds start (trace ++ deeds) next ∧
            ∀ task message, .failure task message ∉ deeds := by
        refine ⟨deeds ++ [deed], ?_, fun task message hmem => ?_⟩
        · rw [← List.append_assoc]
          exact hrun.next hstep
        · rcases List.mem_append.mp hmem with hmem | hmem
          · exact hnone task message hmem
          · exact hdeed task message (List.mem_singleton.mp hmem).symm
      unfold stepped
      split
      · next task next hperform => exact hsnoc (.perform hperform) nofun
      · cases htake : last.take? with
        | some next => exact hsnoc (.take htake) nofun
        | none => exact ⟨deeds, hrun, hnone⟩

/-- A session whose engine has started. -/
def started : Session :=
  Nat.repeat stepped 2 ((create {}).notify .engineStarted).2

/-- A session in which thread 1 was let go on after it had announced a script. -/
def greeted : Session :=
  let script : Snapshot := { id := ⟨1⟩, title := "a", source := "print 1", resource := some "a" }
  Nat.repeat stepped 10 (started.notify (.scriptReady ⟨1⟩ script true)).2

/-- Nobody failed on the way there. -/
theorem execution_greeted : ∃ trace, Execution Proceeds (create {}) trace greeted ∧
    ∀ task message, .failure task message ∉ trace := by
  obtain ⟨first, hstarted, hfirst⟩ :=
    execution_of_stepped (.next .start (.notify (create {}) .engineStarted)) 2
  obtain ⟨second, hgreeted, hsecond⟩ := execution_of_stepped (hstarted.next (.notify _ _)) 10
  refine ⟨_, hgreeted, fun task message hmem => ?_⟩
  simp [hfirst, hsecond] at hmem

end Session

end Pausepoint
