import Pausepoint.Refusal

/-!
# The gate

Reports of interpreters are admitted, or refused, before they are queued. The gate knows how far the
engine is, which threads have announced themselves, and which of them have reported a pause that no
dispatched decision has ended; such a thread may report nothing more.

* `Gate.accept` — the decision, and what the gate remembers of it;
* `Gate.revoke` — takes back a pause that was admitted and then not queued;
* `Gate.release`, `Gate.releaseAll`, `Gate.close` — the ends of pauses.
-/

namespace Pausepoint

/-- How far the engine is. -/
inductive EnginePhase
  | idle
  | started
  | ended
  deriving Repr, DecidableEq, Inhabited

/-- What is known when a report comes in (`ExecutionGate`). -/
structure Gate where
  phase : EnginePhase := .idle
  /-- Is every report refused from now on? -/
  closed : Bool := false
  /-- The threads that have announced a script. -/
  known : List ThreadId := []
  /-- The threads with an undecided pause. -/
  paused : List ThreadId := []
  deriving Repr, DecidableEq, Inhabited

namespace Gate

/-- Adds a thread to a set of threads. -/
def withThread (thread : ThreadId) (set : List ThreadId) : List ThreadId :=
  if thread ∈ set then set else thread :: set

@[simp] theorem mem_withThread {t u : ThreadId} {set : List ThreadId} :
    u ∈ withThread t set ↔ u = t ∨ u ∈ set := by
  unfold withThread
  split
  · next h => exact ⟨Or.inr, fun hu => hu.elim (fun e => e ▸ h) id⟩
  · simp

/-- The pause of a thread is over (`release`). -/
def release (g : Gate) (thread : ThreadId) : Gate :=
  { g with paused := g.paused.filter (· ≠ thread) }

def releaseAll (g : Gate) : Gate :=
  { g with paused := [] }

/-- Nothing is admitted from now on (`close`). -/
def close (g : Gate) : Gate :=
  { g with closed := true, paused := [] }

def isPaused (g : Gate) (thread : ThreadId) : Bool :=
  decide (thread ∈ g.paused)

/-- Admits a report about a thread. -/
def acceptFrom (g : Gate) (thread : ThreadId) (announces pauses : Bool) : Except Refusal Gate :=
  if !announces && decide (thread ∉ g.known) then .error (.unknownThread thread)
  else if thread ∈ g.paused then .error (.pauseInFlight thread)
  else .ok
    { g with
      known := if announces then withThread thread g.known else g.known
      paused := if pauses then withThread thread g.paused else g.paused }

def announces : Notification → Bool
  | .scriptReady .. => true
  | _ => false

/-- Admits a report (`admit`), or says why not. -/
def accept (g : Gate) (n : Notification) : Except Refusal Gate :=
  if g.closed then .error .closed
  else match n with
    | .engineStarted =>
        if g.phase = .ended then .error .terminated else .ok { g with phase := .started }
    | .engineTerminated => .ok { g with phase := .ended, paused := [] }
    | .scriptReady thread .. | .stackFrames thread _ | .suspended thread .. | .resumed thread _ =>
        match g.phase with
        | .idle => .error .notStarted
        | .ended => .error .terminated
        | .started => g.acceptFrom thread (announces n) n.isPause

/-- Takes back the pause of a report that was admitted and then not queued (`revoke`). -/
def revoke (g : Gate) (n : Notification) : Gate :=
  match n.isPause, n.thread? with
  | true, some thread => g.release thread
  | _, _ => g

end Gate

end Pausepoint
