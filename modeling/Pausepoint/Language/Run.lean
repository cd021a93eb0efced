import Pausepoint.Refusal

/-!
# Runs of a script

A script that runs does two kinds of things: it computes, and it comes to points where a debugger may
look at it and hold it. `Run` keeps the second kind visible: a run is either over, or at a checkpoint
with a continuation that awaits the debugger's reply. Every run is a finite tree, since every script
ends whatever it is replied.

* `Checkpoint` — the points: the engine starts, a script was loaded, a line is about to run, the engine
  ends;
* `Run.bind` — one run after another;
* `Run.undisturbed` — the outcome without a debugger, where every reply is consent;
* `Run.checkpoints` — the points passed on the way there.
-/

namespace Pausepoint.Language

/-- A point at which a run may be held. -/
inductive Checkpoint
  /-- The engine starts. -/
  | started
  /-- A script was loaded, below a stack of the given depth. -/
  | load (script : Snapshot) (depth : Nat)
  /-- A line of a script is about to run, on a stack of the given depth. -/
  | line (script : Snapshot) (line : Nat) (depth : Nat) (frames : List Frame)
  /-- The engine ends. -/
  | ended
  deriving Repr, DecidableEq

/-- A computation that may be held at checkpoints; at each of them its scopes can be seen. -/
inductive Run (α : Type) : Type
  | done (result : α)
  /-- It waits for a reply. -/
  | ask (point : Checkpoint) (heap : Heap) (resume : Reply → Run α)

namespace Run

variable {α β : Type}

/-- Continues with another run. -/
def bind : Run α → (α → Run β) → Run β
  | .done a, next => next a
  | .ask point heap resume, next => .ask point heap fun reply => (resume reply).bind next

/-- The result when nothing is ever refused. -/
def undisturbed : Run α → α
  | .done a => a
  | .ask _ _ resume => (resume (.ok ())).undisturbed

/-- The checkpoints passed when nothing is ever refused. -/
def checkpoints : Run α → List Checkpoint
  | .done _ => []
  | .ask point _ resume => point :: (resume (.ok ())).checkpoints

@[simp] theorem bind_done (a : α) (next : α → Run β) : (Run.done a).bind next = next a := rfl

/-- What two runs in sequence give is what the second gives after the first. -/
@[simp] theorem undisturbed_bind (r : Run α) (next : α → Run β) :
    (r.bind next).undisturbed = (next r.undisturbed).undisturbed := by
  induction r with
  | done a => rfl
  | ask point heap resume ih => exact ih (.ok ())

/-- Two runs in sequence pass the checkpoints of both. -/
@[simp] theorem checkpoints_bind (r : Run α) (next : α → Run β) :
    (r.bind next).checkpoints = r.checkpoints ++ (next r.undisturbed).checkpoints := by
  induction r with
  | done a => rfl
  | ask point heap resume ih => exact congrArg (point :: ·) (ih (.ok ()))

end Run

end Pausepoint.Language
