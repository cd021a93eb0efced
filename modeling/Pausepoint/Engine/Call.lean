import Pausepoint.Engine.Basic
import Pausepoint.Session.Control

/-!
# Calls of the engine

An interpreter calls the engine before a script runs and before each line. Most calls return at once. A
call that is a pause goes through several steps, and anything may happen between two of them:

1. the request is decided;
2. a slot for the decision is opened, so that a fast answer finds one;
3. the pause is reported, or the slot is given up because the report was refused;
4. the call waits for a decision, for the end of the session, or until it has waited too long;
5. after a decision, or after giving up, it reports that the thread goes on, and returns. Nobody minds
   if that report is refused.

* `Phase` — where a call is;
* `Phase.advance?` — its next step, `none` while it waits and once it has returned;
* `Phase.stepsLeft` — how many steps there may be before it returns;
* `Phase.giveUp?` — the step of a waiting call that has waited too long.
-/

namespace Pausepoint

/-- Where a call of `script_ready` or `process_line` is. -/
inductive Phase
  | entering (r : Request)
  /-- It is a pause, without a slot. -/
  | opening (p : Pause)
  /-- The slot is open, nothing is reported. -/
  | reporting (p : Pause)
  | waiting (p : Pause)
  /-- A decision was taken up, the thread has not reported that it goes on. -/
  | confirming (mode : Mode)
  /-- It has waited too long for so many milliseconds, the gate still knows of the pause. -/
  | abandoning (milliseconds : Nat)
  /-- The gate has forgotten the pause, the thread has not reported that it goes on. -/
  | excusing (milliseconds : Nat)
  | returned (reply : Reply)
  deriving Inhabited

/-- What a call works on: the session and the engine. -/
structure Bridge where
  session : Session := {}
  engine : Engine := {}
  deriving Inhabited

namespace Bridge

def notify (b : Bridge) (n : Notification) : Reply × Bridge :=
  let (reply, session) := b.session.notify n
  (reply, { b with session })

/-- The same where a refusal makes no difference. -/
def mention (b : Bridge) (n : Notification) : Bridge :=
  (b.notify n).2

def engineStarted (b : Bridge) : Reply × Bridge :=
  b.notify .engineStarted

/-- The engine ends (`engine_terminated`); a detached one says nothing. -/
def engineTerminated (b : Bridge) : Reply × Bridge :=
  if b.engine.closed = some .detached then (.ok (), b) else b.notify .engineTerminated

end Bridge

namespace Phase

/-- The next step of a call of a thread, through `pause` and, once it has given up, `abandon`. -/
def advance? (b : Bridge) (thread : ThreadId) : Phase → Option (Bridge × Phase)
  | .entering r =>
      match b.engine.decide thread r with
      | .refuse cause => some (b, .returned (.error cause))
      | .pass => some (b, .returned (.ok ()))
      | .pause p => some (b, .opening p)
  | .opening p => some ({ b with engine := b.engine.openSlot thread }, .reporting p)
  | .reporting p =>
      match b.notify p.report with
      | (.ok (), b) => some (b, .waiting p)
      | (.error cause, b) =>
          let b := { b with engine := b.engine.dropSlot thread }
          some (b, .returned
            (if b.engine.closed = some .detached then .ok () else .error cause))
  | .waiting p =>
      match b.engine.wakening? thread with
      | some (.decided mode) =>
          some ({ b with engine := b.engine.takeUp thread p mode }, .confirming mode)
      | some (.closed c) =>
          some ({ b with engine := b.engine.dropSlot thread }, .returned c.reply)
      | none => none
  | .confirming mode => some (b.mention (.resumed thread mode), .returned (.ok ()))
  | .abandoning milliseconds =>
      some ({ b with session := (b.session.abandonPause thread).2 }, .excusing milliseconds)
  | .excusing milliseconds =>
      some (b.mention (.resumed thread .clientRequest),
        .returned (.error (.resumeTimeout milliseconds)))
  | .returned _ => none

/-- How many steps a call may still make before it returns. -/
def stepsLeft : Phase → Nat
  | .entering _ => 6
  | .opening _ => 5
  | .reporting _ => 4
  | .waiting _ => 3
  | .abandoning _ => 2
  | .confirming _ | .excusing _ => 1
  | .returned _ => 0

/-- Every step of a call brings it closer to its return. -/
theorem stepsLeft_advance {b b' : Bridge} {thread : ThreadId} {phase phase' : Phase}
    (h : phase.advance? b thread = some (b', phase')) : phase'.stepsLeft < phase.stepsLeft := by
  cases phase with
  | entering r | reporting p | waiting p =>
      unfold advance? at h
      dsimp only at h
      split at h <;> cases h <;> simp [stepsLeft]
  | opening | confirming | abandoning | excusing =>
      cases h
      simp [stepsLeft]
  | returned reply => cases h

/-- A waiting call has waited too long, if there is a bound and nothing else has ended the wait. -/
def giveUp? (b : Bridge) (thread : ThreadId) : Phase → Option (Bridge × Phase)
  | .waiting _ =>
      match b.engine.resumeTimeout, b.engine.wakening? thread with
      | some milliseconds, none =>
          some ({ b with engine := (b.engine.dropSlot thread).dropStep thread },
            .abandoning milliseconds)
      | _, _ => none
  | _ => none

end Phase

end Pausepoint
