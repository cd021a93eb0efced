import Pausepoint.Event
import Pausepoint.Text.Duration

/-!
# Refusals

Every call of either side can be refused; a refusal is its cause, and `Refusal.message` its wording.
-/

namespace Pausepoint

/-- Why a call was refused. -/
inductive Refusal
  /-- No such thread has announced itself. -/
  | unknownThread (thread : ThreadId)
  /-- The thread is in a state in which the action makes no sense. -/
  | invalidTransition (thread : ThreadId) (state : ThreadState) (action : String)
  /-- The thread has a pause that nobody has decided yet. -/
  | pauseInFlight (thread : ThreadId)
  /-- The engine has not started. -/
  | notStarted
  /-- The session is over. -/
  | terminated
  /-- The queue takes no more events. -/
  | closed
  /-- Nobody decided in time; the time is in milliseconds. -/
  | resumeTimeout (milliseconds : Nat)
  /-- The dispatcher could not be started. -/
  | spawn (cause : String)
  deriving Repr, DecidableEq, Inhabited

def Refusal.message : Refusal → String
  | .unknownThread thread => s!"unknown debug thread {thread}"
  | .invalidTransition thread state action =>
      s!"thread {thread} cannot {action} while {state.description}"
  | .pauseInFlight thread => s!"thread {thread} is paused and waiting for a resume decision"
  | .notStarted => "engine has not reported start yet"
  | .terminated => "debug session is terminated"
  | .closed => "debug session event queue is closed"
  | .resumeTimeout milliseconds => s!"no resume decision within {Text.durationText milliseconds}"
  | .spawn cause => s!"failed to spawn dispatcher thread: {cause}"

/-- The answer to a call that gives nothing back. -/
abbrev Reply := Except Refusal Unit

end Pausepoint
