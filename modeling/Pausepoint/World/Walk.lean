import Pausepoint.World.Settling

/-!
# From stop to stop

* `World.walk` — a controller that answers every stop of a thread by the next of some modes, in turn, and
  notes what it saw;
* `World.waitOut` — nobody answers, until the thread has given up at every stop of its job.
-/

namespace Pausepoint

/-- What was seen at a stop, and how the answer was received. -/
structure Stop where
  reason : Option Reason
  /-- The names of its frames, innermost first. -/
  frames : List String
  /-- The variables of its innermost frame. -/
  innermost : List Variable
  reply : Reply

namespace World

/-- Notes a stop of a thread and answers it. -/
def answerStop (w : World) (thread : ThreadId) (mode : Mode) : World × Stop :=
  let handles := (w.handles thread).toOption.getD []
  let frames := handles.map fun h => ((w.published? h).map (·.frame.name)).getD ""
  let reason := ((w.session.suspendReason thread).toOption).join
  let (innermost, w) := match handles.head? with
    | some h => w.readVariables h
    | none => ([], w)
  let (reply, session) := w.session.resume thread mode
  (w.withSession session, { reason, frames, innermost, reply })

/-- Answers at most so many stops of a thread, by the given modes in turn, the first of them being the
one at place `turn`; gives the stops and what was seen in between. -/
def walk (thread : ThreadId) (modes : List Mode) : Nat → Nat → World → World × List Stop × List Report
  | _, 0, w => (w, [], [])
  | turn, limit + 1, w =>
      if w.isAtStop thread then
        let (w, stop) := w.answerStop thread (modes[turn % modes.length]?.getD .resume)
        let (w, seen) := w.settle
        let (w, stops, later) := walk thread modes (turn + 1) limit w
        (w, stop :: stops, seen ++ later)
      else (w, [], [])

/-- A number of stops that no run of practical size comes near. -/
def stopLimit : Nat := 1000000000

/-- Lets a thread give up at no more than so many stops, one after the other; gives what was seen. -/
def waitOutFrom (thread : ThreadId) : Nat → World → World × List Report
  | 0, w => (w, [])
  | limit + 1, w =>
      if w.jobs.any fun j => j.thread = thread && (j.giveUp? w.bridge).isSome then
        let (w, seen) := (w.giveUp thread).settle
        let (w, later) := waitOutFrom thread limit w
        (w, seen ++ later)
      else (w, [])

/-- Lets a thread give up at every stop until its job is over or waits without a bound. -/
def waitOut (w : World) (thread : ThreadId) : World × List Report :=
  waitOutFrom thread stopLimit w

end World

end Pausepoint
