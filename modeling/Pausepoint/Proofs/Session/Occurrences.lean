import Pausepoint.Proofs.Session.Isolation

/-!
# Pausepoint.Proofs.Session.Occurrences

All that can occur to a session.

`Session.Occurs` adds to what happens to a session (`Session.Happens`) the failures of client code: in a
task in which client code runs it may fail, and the rest of the handling is given up. Nothing is said of
the order in which the two sides and the dispatcher take their turns.

* `Occurrence.shows` — what a step delivers to a client: a callback to the listener, a command to the
  execution side, or the task in which client code failed;
* `shownTasks` — what the tasks of an agenda will deliver.
-/

namespace Pausepoint

/-- Is a task the delivery of a callback or of a command? -/
def Task.isShown : Task → Bool
  | .callback _ | .lastCallback _ | .command _ | .forward _ => true
  | .release _ | .releaseAll | .followUp _ | .closeQueue | .closeGate | .forwardClosed | .announceClosed
  | .finish _ => false

/-- The deliveries among some tasks, in order. -/
def shownTasks (tasks : List Task) : List Task :=
  tasks.filter Task.isShown

@[simp] theorem shownTasks_nil : shownTasks [] = [] := rfl

@[simp] theorem shownTasks_append (tasks later : List Task) :
    shownTasks (tasks ++ later) = shownTasks tasks ++ shownTasks later :=
  List.filter_append ..

/-- A task in front is delivered before the others. -/
theorem shownTasks_cons (task : Task) (rest : List Task) :
    shownTasks (task :: rest) = shownTasks [task] ++ shownTasks rest :=
  shownTasks_append [task] rest

@[simp] theorem shownTasks_closing (exit : Exit) : shownTasks (closing exit) = [] := rfl

@[simp] theorem shownTasks_lastCallbacks (cs : List Callback) :
    shownTasks (cs.map .lastCallback) = cs.map .lastCallback := by
  refine List.filter_eq_self.mpr fun task htask => ?_
  obtain ⟨c, -, rfl⟩ := List.mem_map.mp htask
  rfl

/-- Client code runs only where something is delivered. -/
theorem shownTasks_of_isFatal {task : Task} (h : Session.isFatal task = true) :
    shownTasks [task] = [task] := by
  cases task with
  | callback | command => rfl
  | release | releaseAll | lastCallback | followUp | forward | closeQueue | closeGate | forwardClosed
  | announceClosed | finish => cases h

namespace Session

/-- What occurs to a session. -/
inductive Occurrence
  /-- Something happened in which client code did not fail. -/
  | ran (h : Happening)
  /-- Client code failed in a task. -/
  | failed (task : Task) (message : String)

/-- One step of a session: one in which client code does not fail (`Happens`), or a task in which it does. -/
inductive Occurs : Session → Occurrence → Session → Prop
  | run {s s' : Session} {h : Happening} (hstep : Happens s h s') : Occurs s (.ran h) s'
  | fail {s s' : Session} {task : Task} (h : s.perform? = some (task, s')) (hfatal : isFatal task = true)
      (message : String) : Occurs s (.failed task message) (s'.fail message)

/-- What is delivered in a step. Where client code fails, it was called. -/
def Occurrence.shows : Occurrence → List Task
  | .ran (.did task) => shownTasks [task]
  | .failed task _ => [task]
  | .ran _ => []

/-- What is delivered in the course of a run. -/
def shownIn (trace : List Occurrence) : List Task :=
  trace.flatMap Occurrence.shows

/-- Client code failed. -/
def Occurrence.IsFailure : Occurrence → Prop
  | .failed .. => True
  | .ran _ => False

/-- The dispatcher took an event. -/
def Occurrence.Takes : Occurrence → Prop
  | .ran (.took (some _)) => True
  | _ => False

@[simp] theorem shownIn_nil : shownIn [] = [] := rfl

@[simp] theorem shownIn_append (trace later : List Occurrence) :
    shownIn (trace ++ later) = shownIn trace ++ shownIn later :=
  List.flatMap_append

@[simp] theorem shownIn_single (o : Occurrence) : shownIn [o] = o.shows := by
  simp [shownIn]

/-! ### One step -/

/-- Whatever is called, the dispatcher stays where it is, and so does the target but for what is read of
frames. -/
theorem call_frame (s : Session) (c : Call) :
    s.target.Rereads (c.run s).target ∧ (c.run s).worker = s.worker := by
  cases c with
  | report n => exact (Proceeds.notify s n).outside
  | abandonPause id => exact (Proceeds.abandonPause s id).outside
  | control c => exact (Proceeds.call s c).outside

theorem Occurs.proceeds {s s' : Session} {o : Occurrence} (h : Occurs s o s') : ∃ deed, Proceeds s deed s' := by
  cases h with
  | fail hperform hfatal message => exact ⟨_, .fail hperform hfatal message⟩
  | run hstep =>
      cases hstep with
      | call c hall =>
          cases c with
          | report n => exact ⟨_, .notify s n⟩
          | abandonPause id => exact ⟨_, .abandonPause s id⟩
          | control c => exact ⟨_, .call s c⟩
      | resumeAll => exact ⟨_, .call s .resumeAll⟩
      | take htake => exact ⟨_, .take htake⟩
      | perform hperform => exact ⟨_, .perform hperform⟩

/-- The registry stays in order, whatever occurs. -/
theorem Occurs.exact {s s' : Session} {o : Occurrence} (h : Occurs s o s') (hr : s.target.registry.Exact) :
    s'.target.registry.Exact := by
  cases h with
  | run hstep => exact hstep.exact hr
  | fail hperform hfatal message =>
      obtain ⟨rest, -, rfl⟩ := perform?_cases hperform
      refine (Target.tells_terminate ?_ _).exact
      rwa [target_effect]

theorem exact_of_occurs {settings : DebuggerSettings} {trace : List Occurrence} {s : Session}
    (h : Execution Occurs (create settings) trace s) : s.target.registry.Exact :=
  h.state_invariant (P := fun s => s.target.registry.Exact) Registry.exact_empty
    fun hr hstep => hstep.exact hr

/-- The dispatcher makes steps of its own. -/
theorem occurs_of_stepped {start s : Session} {trace : List Occurrence} (h : Execution Occurs start trace s)
    (count : Nat) : ∃ later, Execution Occurs start later (Nat.repeat stepped count s) := by
  induction count with
  | zero => exact ⟨trace, h⟩
  | succ count ih =>
      obtain ⟨later, hrun⟩ := ih
      show ∃ later, Execution Occurs start later (stepped (Nat.repeat stepped count s))
      generalize Nat.repeat stepped count s = last at hrun ⊢
      unfold stepped
      split
      · next task next hperform => exact ⟨_, hrun.next (.run (.perform hperform))⟩
      · cases htake : last.take? with
        | some next => exact ⟨_, hrun.next (.run (.take htake))⟩
        | none => exact ⟨_, hrun⟩

end Session

end Pausepoint
