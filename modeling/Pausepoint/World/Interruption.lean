import Pausepoint.Session.Dispatch

/-!
# Interruptions of the dispatcher

A client's code runs on the dispatcher: its callbacks, its handling of commands, and its farewell. There
it may take any time, or fail. Such behaviour is described by traps that wait for the dispatcher to come
to a place; each works once.

* `Place`, `Task.place?` — where client code runs;
* `Trap`, `spring` — which of several traps works at a place;
* `marker` — a command that means nothing to anyone, by which a trap can wait for a place in the queue.
-/

namespace Pausepoint

/-- A place at which client code runs on the dispatcher: a callback or a command of some kind, the farewell, or
the marker. -/
inductive Place
  | callback (kind : String)
  | command (kind : String)
  | closed
  | marker
  deriving Repr, DecidableEq, Inhabited

/-- What client code does there: it takes its time, or fails, perhaps with a message. -/
inductive Interruption
  | hold
  | fail (message : Option String)
  deriving Repr, DecidableEq, Inhabited

/-- A trap that works once. -/
structure Trap where
  place : Place
  /-- The only thread it is for, if there is one. -/
  thread : Option ThreadId := none
  /-- How many times it lets the dispatcher pass before. -/
  skip : Nat := 0
  interruption : Interruption
  deriving Repr, DecidableEq, Inhabited

/-- A command that no client sends: no script has this number. -/
def marker : Command :=
  .setBreakpoint ⟨18446744073709551616⟩ { resource := "", line := 0 } .add

/-- The place of a task, if it runs client code. -/
def Task.place? : Task → Option Place
  | .callback c | .lastCallback c => some (.callback c.kind)
  | .command c => some (if c = marker then .marker else .command c.kind)
  | .announceClosed => some .closed
  | _ => none

/-- The thread that client code is told about in a task. -/
def Task.thread? : Task → Option ThreadId
  | .callback c | .lastCallback c => c.thread?
  | .command (.resume thread _) => some thread
  | _ => none

/-- Does the trap wait for this place and thread? -/
def Trap.waitsFor (t : Trap) (place : Place) (thread : Option ThreadId) : Bool :=
  t.place = place && (t.thread.isNone || t.thread = thread)

/-- The traps at a place, in the order in which they were set: each one that waits for the place counts,
up to the first that works, which is gone after that. -/
def spring (place : Place) (thread : Option ThreadId) : List Trap → Option Interruption × List Trap
  | [] => (none, [])
  | t :: rest =>
      if t.waitsFor place thread then
        match t.skip with
        | 0 => (some t.interruption, rest)
        | skip + 1 =>
            let (sprung, rest) := spring place thread rest
            (sprung, { t with skip } :: rest)
      else
        let (sprung, rest) := spring place thread rest
        (sprung, t :: rest)

/-- What is said of a failure without a message. -/
def unspokenFailure : String := "<non-string panic payload>"

end Pausepoint
