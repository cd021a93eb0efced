import Pausepoint.Session.Thread
import Pausepoint.Table

/-!
# The registry of threads

The threads of a session in order of first contact, with an index from their identities to their places.
-/

namespace Pausepoint

/-- The threads of a session (`SessionRegistry`), in order of first contact. -/
structure Registry where
  threads : Array DebugThread := #[]
  /-- The place of each thread. -/
  index : Table ThreadId Nat := .empty
  deriving Inhabited

namespace Registry

def get? (r : Registry) (id : ThreadId) : Option DebugThread :=
  match r.index.get? id with
  | some slot => r.threads[slot]?
  | none => none

/-- Makes sure that a thread is there (`get_or_create`); the flag tells whether it is new. -/
def contact (r : Registry) (id : ThreadId) : Bool × Registry :=
  if (r.index.get? id).isSome then (false, r)
  else (true, { threads := r.threads.push { id }, index := r.index.insert id r.threads.size })

/-- Changes the thread with an identity. -/
def update (r : Registry) (id : ThreadId) (f : DebugThread → DebugThread) : Registry :=
  match r.index.get? id with
  | some slot => { r with threads := r.threads.modify slot f }
  | none => r

/-- Ends every thread (`terminate_all`); gives those that had not ended, in order of first contact. -/
def terminateAll (r : Registry) : List ThreadId × Registry :=
  ((r.threads.toList.filter fun t => t.state ≠ .terminated).map DebugThread.id,
    { r with threads := r.threads.map DebugThread.terminate })

end Registry

end Pausepoint
