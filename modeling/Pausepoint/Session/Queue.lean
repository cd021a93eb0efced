import Pausepoint.Refusal

/-!
# The event queue

Events of both sides wait in one queue, in the order in which they were submitted. A queue may drop an
event while an equal one waits. A cancelled queue hands out nothing more, and a closed one takes nothing
more.
-/

namespace Pausepoint

/-- What became of a submitted event; a `duplicate` was dropped, since an equal one waits already. -/
inductive Submitted
  | queued
  | duplicate
  deriving Repr, DecidableEq, Inhabited

/-- Events that wait to be dispatched, oldest first. -/
structure EventQueue where
  events : List Event := []
  /-- Are equal events kept only once? -/
  dedupe : Bool := false
  /-- Is nothing handed out any more? -/
  cancelled : Bool := false
  /-- Is nothing taken any more? -/
  closed : Bool := false
  deriving Repr, DecidableEq, Inhabited

/-- What a queue gives to whoever asks for the next event: it, or nothing now and ever, or nothing yet. -/
inductive Next
  | event (e : Event) (rest : EventQueue)
  | none
  | wait

namespace EventQueue

/-- Submits an event (`submit`). A refusal leaves the queue as it is. -/
def submit (q : EventQueue) (e : Event) : Except Refusal (Submitted × EventQueue) :=
  if q.closed then .error .closed
  else if q.dedupe && decide (e ∈ q.events) then .ok (.duplicate, q)
  else .ok (.queued, { q with events := q.events ++ [e] })

/-- The oldest event (`next`). -/
def next (q : EventQueue) : Next :=
  if q.cancelled then .none
  else match q.events with
    | e :: rest => .event e { q with events := rest }
    | [] => if q.closed then .none else .wait

/-- Nothing is handed out or taken from now on (`cancel`); what waits is kept but never delivered. -/
def cancel (q : EventQueue) : EventQueue :=
  if q.cancelled then q else { q with cancelled := true, closed := true }

/-- Nothing is taken from now on, and what waits is discarded (`close`). -/
def close (q : EventQueue) : EventQueue :=
  { q with closed := true, events := [] }

def size (q : EventQueue) : Nat :=
  q.events.length

end EventQueue

end Pausepoint
