import Pausepoint.Engine.Call
import Pausepoint.Language.Interpreter

/-!
# Jobs

A job is one piece of work of the execution side: a single call of the engine, or a whole run of a
script, which calls the engine at its checkpoints. Jobs of different threads take turns in any order.
-/

namespace Pausepoint

/-- What a job gives: the reply to a single call, or the outcome of a run. -/
inductive JobResult
  | call (reply : Reply)
  | script (outcome : Language.Outcome)

/-- A piece of work of one thread, by what is left of it. -/
structure Job where
  thread : ThreadId
  run : Language.Run JobResult
  /-- The call of the engine it is in. -/
  phase : Option Phase := none
  /-- Is it a single call at a line? -/
  isLine : Bool := false
  /-- Did a line ever stop it? -/
  stopped : Bool := false
  /-- Do clients know that it is held at a stop, other than the loading of a script? -/
  atStop : Bool := false
  /-- The number of its heap, if it has one. -/
  heap : Option Nat := none

namespace Job

def ofCheckpoint (thread : ThreadId) (point : Language.Checkpoint) : Job :=
  let isLine := match point with
    | .line .. => true
    | _ => false
  { thread, isLine, run := .ask point {} fun reply => .done (.call reply) }

def ofScript (thread : ThreadId) (i : Language.Interpreter) (script : Script) : Job :=
  { thread
    run := (i.run script).bind fun outcome => .done (.script outcome)
    heap := some i.heapNumber }

/-- What it gave, once it is over. -/
def result? (j : Job) : Option JobResult :=
  match j.run with
  | .done result => some result
  | .ask .. => none

/-- Its scopes as they are now. -/
def scopes? (j : Job) : Option (Nat × Heap) :=
  match j.heap, j.run with
  | some number, .ask _ heap _ => some (number, heap)
  | some number, .done (.script (i, _)) => some (number, i.heap)
  | _, _ => none

def waits : Phase → Bool
  | .waiting _ => true
  | _ => false

/-- The job once clients know of the stop at which its call waits. -/
def noteStop (j : Job) : Job :=
  { j with atStop := j.atStop || j.phase.any waits }

/-- The call of the engine that a checkpoint is, after its first step. -/
def begin (b : Bridge) : Language.Checkpoint → Bridge × Phase
  | .started =>
      let (reply, b) := b.engineStarted
      (b, .returned reply)
  | .ended =>
      let (reply, b) := b.engineTerminated
      (b, .returned reply)
  | .load script depth => (b, .entering (.load script depth))
  | .line script line depth frames => (b, .entering (.line script line depth frames))

/-- Is this the pause of a line? -/
def stops : Phase → Bool
  | .opening p => !p.keepStep
  | _ => false

/-- The job in another phase of its call. It is at a stop for as long as the call waits, whatever the
session says of its thread meanwhile. -/
def inPhase (j : Job) (phase : Phase) : Job :=
  { j with
    phase := some phase
    stopped := j.stopped || stops phase
    atStop := j.atStop && waits phase }

/-- The next step of a job; `none` while it waits, and once it is over. -/
def advance? (b : Bridge) (j : Job) : Option (Bridge × Job) :=
  match j.run with
  | .done _ => none
  | .ask point _ resume =>
      match j.phase with
      | none =>
          let (b, phase) := begin b point
          some (b, j.inPhase phase)
      | some (.returned reply) => some (b, { j with run := resume reply, phase := none })
      | some phase => (phase.advance? b j.thread).map fun (b, phase) => (b, j.inPhase phase)

/-- A waiting job has waited too long. -/
def giveUp? (b : Bridge) (j : Job) : Option (Bridge × Job) :=
  match j.phase with
  | some phase => (phase.giveUp? b j.thread).map fun (b, phase) => (b, j.inPhase phase)
  | none => none

end Job

end Pausepoint
