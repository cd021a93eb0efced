import Pausepoint.Session.Control

/-!
# Dispatching

One dispatcher handles the events of a session in order.

* `Session.take?` — takes the oldest event once nothing else is left to do: the target changes, and the
  rest of the handling becomes the agenda;
* `Session.perform?` — does the first task of the agenda;
* `Session.fail` — what is done instead of the rest of the agenda when client code fails;
* `Session.dispatch?` — the whole handling of one event in one piece.

Every end of the dispatcher closes first the queue, then the gate, and then tells the execution side.
-/

namespace Pausepoint

/-- The last tasks of a dispatcher: `close` of the queue and of the gate, and `session_closed` for the
execution side. -/
def closing (exit : Exit) : List Task :=
  [.closeQueue, .closeGate, .forwardClosed, .announceClosed, .finish exit]

/-- What `dispatch` does with the outcome of a report. -/
def notificationTasks (n : Notification) (effects : Effects) : List Task :=
  effects.callbacks.map .callback ++ effects.followUps.map .followUp ++
    (if n = .engineTerminated then closing .engineTerminated else [])

/-- What a delivered command tells the gate: `release`, or `release_all`. -/
def releaseTasks : Command → List Task
  | .resume thread _ => [.release thread]
  | .terminate | .disconnect => [.releaseAll]
  | .setBreakpoint .. => []

/-- What `dispatch` does with the outcome of a command. -/
def commandTasks (c : Command) (effects : Effects) : List Task :=
  if effects.deliver then
    releaseTasks c ++ effects.callbacks.map .callback ++ effects.followUps.map .followUp ++
      [.command c, .forward c] ++ (if c = .disconnect then closing .disconnected else [])
  else effects.callbacks.map .callback ++ effects.followUps.map .followUp

namespace Session

/-- Has the dispatcher nothing left to do but to take the next event? -/
def isIdle (s : Session) : Bool :=
  s.worker.agenda.isEmpty && s.worker.exit.isNone

/-- Puts an event into the hands of the dispatcher (`dispatch`): the target changes at once. -/
def handle (s : Session) (e : Event) : Session :=
  match e with
  | .notification n =>
      let (effects, target) := s.target.handleNotification s.breakpoints n
      { s with
        target
        worker := { s.worker with event := n.kind, agenda := notificationTasks n effects } }
  | .command c =>
      let (effects, target) := s.target.handleCommand c
      { s with
        target
        worker := { s.worker with event := c.kind, agenda := commandTasks c effects } }

/-- Takes the next event, or begins to close if there will be none, as the loop of `run` does; `none` if the
dispatcher is busy, done, or has to wait. -/
def take? (s : Session) : Option Session :=
  if s.isIdle then
    match s.queue.next with
    | .event e queue => some ({ s with queue }.handle e)
    | .none => some { s with worker := { s.worker with agenda := closing .cancelled } }
    | .wait => none
  else none

/-- What a task does to the session itself. Telling clients and the engine changes nothing here. -/
def effect (s : Session) : Task → Session
  | .release thread => { s with gate := s.gate.release thread }
  | .releaseAll => { s with gate := s.gate.releaseAll }
  | .followUp c => (s.submit (.command c)).2
  | .closeQueue => { s with queue := s.queue.close }
  | .closeGate => { s with gate := s.gate.close }
  | .announceClosed => { s with worker := { s.worker with announced := true } }
  | .finish exit => { s with worker := { s.worker with exit := some exit } }
  | .callback _ | .lastCallback _ | .command _ | .forward _ | .forwardClosed => s

/-- Does the first task of the agenda. -/
def perform? (s : Session) : Option (Task × Session) :=
  match s.worker.agenda with
  | [] => none
  | task :: rest => some (task, { s with worker := { s.worker with agenda := rest } }.effect task)

/-- Does a failure of client code in this task end the session? -/
def isFatal : Task → Bool
  | .callback _ | .command _ => true
  | _ => false

/-- Client code failed while the last event was handled (`fail`): the target ends with a fault, and the rest of
the handling is left undone. -/
def fail (s : Session) (message : String) : Session :=
  let fault : Fault := { event := s.worker.event, message }
  let (callbacks, target) := s.target.terminate (some fault)
  { s with
    target
    worker := { s.worker with
      agenda := .releaseAll :: callbacks.map .lastCallback ++ closing (.faulted fault) } }

/-- Does every task of the agenda; gives them in order. -/
def finishAgenda (s : Session) : List Task × Session :=
  (s.worker.agenda, s.worker.agenda.foldl effect { s with worker := { s.worker with agenda := [] } })

/-- Takes the next event and handles it in one piece; gives the tasks that were done. -/
def dispatch? (s : Session) : Option (List Task × Session) :=
  s.take?.map finishAgenda

/-- The exit that `join` waits for: there once the dispatcher has told everyone that it stops. -/
def exit? (s : Session) : Option Exit :=
  s.worker.exit

end Session

end Pausepoint
