import Pausepoint.World.Basic

/-!
# The automatic controller

A controller that shows every line stop and answers it in a fixed way, until a limit is reached; the stop that
reaches the limit is answered by a request to end.

* `Signal` — what the listener signals to the controller: a thread is suspended, or the session is over;
* `ShownStop` — what is shown of a stop, with its document;
* `Watch` — a world with its controller, and what was seen of both;
* `Watch.attend?` — the next step of the controller, which is the loop of `main`;
* `Watch.Step` — one step of anyone.

The controller runs beside the dispatcher and the script, and the session is locked for one look at a time.
So every look is a step of its own (`Attention`), and when it looks again things may be different: a thread
that was signalled may have gone on, or be at a later stop.
-/

namespace Pausepoint

open Pausepoint.Text

/-! ### What is shown of a stop -/

/-- A frame of a stop, with the title of its script. -/
structure ShownFrame where
  name : String
  script : String
  line : Nat
  contents : List Variable

structure ShownStop where
  thread : ThreadId
  reason : Option Reason
  /-- Its frames, innermost first. -/
  frames : List ShownFrame

/-- A variable on one line: its name and the summary of its value. -/
def Variable.lineDocument (v : Variable) : Document :=
  .object [("name", .string v.name), ("value", .string v.value.summary)]

def ShownFrame.document (f : ShownFrame) : Document :=
  .object [("line", .integer f.line), ("name", .string f.name), ("script", .string f.script),
    ("variables", .array (f.contents.map Variable.lineDocument))]

def ShownStop.document (s : ShownStop) : Document :=
  .object [("event", .string "stopped"), ("frames", .array (s.frames.map ShownFrame.document)),
    ("reason", .ofOption (fun r : Reason => .string r.word) s.reason),
    ("thread", .integer s.thread.number)]

/-! ### Signals -/

/-- What the listener signals to the controller: clients were told that a thread is suspended, or that the
session is over. -/
inductive Signal
  | stopped (thread : ThreadId)
  | ended
  deriving Repr, DecidableEq

/-- The signal that comes with a callback. -/
def Report.signal? : Report → Option Signal
  | .callback (.threadStateChanged thread .suspended) .. => some (.stopped thread)
  | .callback (.sessionTerminated _) .. => some .ended
  | _ => none

/-- The signals among what was seen, in order. -/
def signals (seen : List Report) : List Signal :=
  seen.filterMap Report.signal?

/-- What a controller gets to see: what everyone does, and the stops that it shows. -/
inductive Sight
  | report (r : Report)
  | stopped (s : ShownStop)

namespace World

/-- A published frame as it is shown. -/
def showFrame (w : World) (h : Handle) : Option ShownFrame × World :=
  match w.published? h with
  | none => (none, w)
  | some p =>
      let (contents, w) := w.readVariables h
      (some { name := p.frame.name, script := p.frame.script.title, line := p.frame.line, contents }, w)

end World

/-! ### The controller -/

/-- How the controller answers. -/
structure Controller where
  mode : Mode
  /-- At so many stops the end is asked for. -/
  maxStops : Nat
  deriving Repr, DecidableEq, Inhabited

/-- Where the controller is in its loop. -/
inductive Attention
  /-- It waits for a signal. -/
  | listening
  /-- A thread was signalled: `can_resume` is next. -/
  | signalled (thread : ThreadId)
  /-- The thread could be resumed: `suspend_reason` is next, since a script that was loaded is let go on by the
  session itself. -/
  | resumable (thread : ThreadId)
  /-- It had stopped at a line: `stack_frames` is next. -/
  | stopped (thread : ThreadId)
  /-- These were its frames, and the one on top was not shown before: `suspend_reason` is next, to be shown. -/
  | framed (thread : ThreadId) (frames : List World.Handle)
  /-- The variables of some frames are still to be read. -/
  | reading (stop : ShownStop) (rest : List World.Handle)
  /-- The stop was shown: `resume` or `terminate` begins. -/
  | answering (thread : ThreadId)
  /-- The command is about to be queued. -/
  | sending (c : Command)
  /-- The loop has ended, by the end of the session or by a refusal. -/
  | finished (reply : Reply)

/-- Does a refusal end the controller? That a thread cannot be resumed any more does not. -/
def isGrave : Reply → Bool
  | .ok () | .error (.invalidTransition ..) => false
  | .error _ => true

/-- Where the controller is after an answer. -/
def Attention.after (reply : Reply) : Attention :=
  if isGrave reply then .finished reply else .listening

/-- Has it begun to look at a thread, and not seen its frames? -/
def Attention.isLooking : Attention → Bool
  | .resumable _ | .stopped _ => true
  | _ => false

/-- A world with its controller. -/
structure Watch where
  world : World
  /-- The signals that the controller has not taken, oldest first. -/
  pending : List Signal := []
  attention : Attention := .listening
  /-- The frame on top of the stop that was shown last. -/
  last : Option World.Handle := none
  /-- How many stops were shown. -/
  handled : Nat := 0
  /-- What was seen, newest first. -/
  sights : List Sight := []

namespace Watch

/-- The controller goes to another place. -/
def goTo (x : Watch) (attention : Attention) : Watch :=
  { x with attention }

/-- The controller calls the session, and goes to another place. -/
def calls (x : Watch) (session : Session) (attention : Attention) : Watch :=
  { x with world := x.world.withSession session, attention }

/-- Someone else made a step, whose reports everyone gets to see. -/
def advance (x : Watch) (next : World × List Report) : Watch :=
  { x with
    world := next.1
    pending := x.pending ++ signals next.2
    sights := (next.2.map .report).reverse ++ x.sights }

/-- The dispatcher makes a step. -/
def dispatch? (x : Watch) : Option Watch :=
  x.world.dispatchStep?.map x.advance

/-- A script makes a step. -/
def work? (x : Watch) : Option Watch :=
  x.world.jobStep?.map x.advance

/-- The frames of a thread were looked at. Whatever was on top of the stop that was shown last was published at
that stop, so that it tells this stop from a later one. -/
def inspect (x : Watch) (thread : ThreadId) (frames : List World.Handle) : Watch :=
  if frames.head?.any fun top => x.last = some top then x.goTo .listening
  else { x with last := frames.head?, attention := .framed thread frames }

/-- An answer begins: `terminate` once the limit is reached, else `resume`. -/
def answer (k : Controller) (x : Watch) (thread : ThreadId) : Watch :=
  if k.maxStops ≤ x.handled then
    match x.world.session.askEnd? with
    | some session => x.calls session (.sending .terminate)
    | none => x.goTo .listening
  else match x.world.session.mayResume thread with
    | .ok () => x.goTo (.sending (.resume thread k.mode))
    | .error cause => x.goTo (.after (.error cause))

/-- The next step of the controller; `none` while it waits for a signal, and once it is over. -/
def attend? (k : Controller) (x : Watch) : Option Watch :=
  match x.attention with
  | .listening =>
      match x.pending with
      | [] => none
      | .ended :: rest => some { x with pending := rest, attention := .finished (.ok ()) }
      | .stopped thread :: rest => some { x with pending := rest, attention := .signalled thread }
  | .signalled thread =>
      some (x.goTo (if x.world.session.canResume thread then .resumable thread else .listening))
  | .resumable thread =>
      match x.world.session.suspendReason thread with
      | .ok reason => some (x.goTo (if reason = some .scriptLoaded then .listening else .stopped thread))
      | .error cause => some (x.goTo (.finished (.error cause)))
  | .stopped thread =>
      match x.world.handles thread with
      | .ok frames => some (x.inspect thread frames)
      | .error cause => some (x.goTo (.finished (.error cause)))
  | .framed thread frames =>
      match x.world.session.suspendReason thread with
      | .ok reason => some (x.goTo (.reading { thread, reason, frames := [] } frames))
      | .error cause => some (x.goTo (.finished (.error cause)))
  | .reading stop (frame :: rest) =>
      let (shown, world) := x.world.showFrame frame
      let stop := { stop with frames := stop.frames ++ shown.toList }
      some { x with world, attention := .reading stop rest }
  | .reading stop [] =>
      some { x with
        sights := .stopped stop :: x.sights
        handled := x.handled + 1
        attention := .answering stop.thread }
  | .answering thread => some (x.answer k thread)
  | .sending c =>
      let (reply, session) := x.world.session.send c
      some (x.calls session (.after reply))
  | .finished _ => none

/-- Who makes a step. -/
inductive Party
  | dispatcher
  | script
  | controller
  deriving Repr, DecidableEq

/-- **One step of anyone.** -/
inductive Step (k : Controller) : Watch → Party → Watch → Prop
  | dispatcher {x y : Watch} (h : x.dispatch? = some y) : Step k x .dispatcher y
  | script {x y : Watch} (h : x.work? = some y) : Step k x .script y
  | controller {x y : Watch} (h : x.attend? k = some y) : Step k x .controller y

end Watch

end Pausepoint
