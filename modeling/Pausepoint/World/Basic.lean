import Pausepoint.World.Interruption
import Pausepoint.World.Job

/-!
# Everything together

A world is a session with its engine, the scopes that frames refer to, the jobs of the execution side,
and the traps that stand for what the clients do on the dispatcher.

* `Report` — what clients and callers get to see;
* `World.dispatchStep?` — one step of the dispatcher;
* `World.jobStep?` — one step of some job;
* `World.step?` — one step of anyone.

The session treats every order of steps alike. `step?` takes the dispatcher first and then the jobs in the
order in which they began.
-/

namespace Pausepoint

/-- What clients and callers get to see. -/
inductive Report
  /-- A callback, with the state of its thread and of the session at that moment. -/
  | callback (c : Callback) (thread : Option ThreadState) (session : SessionState)
  /-- A command that was given to the execution side. -/
  | command (c : Command)
  /-- A job that is over. -/
  | finished (job : Job) (result : JobResult)

/-- A session with everything around it; jobs and traps are oldest first. -/
structure World where
  bridge : Bridge := {}
  /-- Does the engine get the commands? -/
  attached : Bool := false
  /-- The scopes of every owner, by number. -/
  heaps : Table Nat Heap := .empty
  /-- The number of the next owner of scopes; number 0 is the session's own side. -/
  nextHeap : Nat := 1
  jobs : List Job := []
  traps : List Trap := []
  /-- Is the dispatcher held up by a client? -/
  held : Bool := false
  deriving Inhabited

namespace World

/-- A world with a fresh session. -/
def create (settings : DebuggerSettings) (attached : Bool) : World :=
  { bridge := { session := .create settings, engine := .create settings }, attached }

def session (w : World) : Session :=
  w.bridge.session

def engine (w : World) : Engine :=
  w.bridge.engine

def withSession (w : World) (session : Session) : World :=
  { w with bridge := { w.bridge with session } }

def bindings (w : World) (scope : ScopeId) : Entries :=
  match w.heaps.get? scope.heap with
  | some heap => heap.bindings scope.index
  | none => []

/-! ### The dispatcher -/

/-- What a task shows to clients; the marker shows nothing. -/
def reportOf (s : Session) : Task → List Report
  | .callback c | .lastCallback c =>
      let thread := c.thread?.bind fun id => (s.target.thread? id).map DebugThread.state
      [.callback c thread s.state]
  | .command c => if c = marker then [] else [.command c]
  | _ => []

/-- What a task does to an engine that gets the commands. -/
def effectOnEngine (e : Engine) : Task → Engine
  | .forward c => if c = marker then e else e.apply c
  | .forwardClosed => e.close
  | _ => e

/-- The thread whose stop a task makes known to clients. The loading of a script is no such stop. -/
def stopIn? (s : Session) : Task → Option ThreadId
  | .callback (.threadStateChanged id .suspended) =>
      if (s.target.thread? id).any fun t => t.lastSuspend != some .scriptLoaded then some id else none
  | _ => none

def noteStop (w : World) (task : Task) : World :=
  match stopIn? w.session task with
  | some thread => { w with jobs := w.jobs.map fun j => if j.thread = thread then j.noteStop else j }
  | none => w

/-- What client code does in a task that was just done. -/
def interrupt (w : World) (task : Task) : World :=
  match task.place? with
  | none => w
  | some place =>
      let (sprung, traps) := spring place task.thread? w.traps
      let w := { w with traps }
      match sprung with
      | none => w
      | some .hold => { w with held := true }
      | some (.fail message) =>
          if Session.isFatal task then w.withSession (w.session.fail (message.getD unspokenFailure))
          else w

/-- One step of the dispatcher: the next task, or else the next event. -/
def dispatchStep? (w : World) : Option (World × List Report) :=
  if w.held then none
  else match w.session.perform? with
    | some (task, session) =>
        let engine := if w.attached then effectOnEngine w.engine task else w.engine
        let w := { w with bridge := { session, engine } }
        some ((w.noteStop task).interrupt task, reportOf session task)
    | none => w.session.take?.map fun session => (w.withSession session, [])

/-! ### Jobs -/

/-- Keeps the scopes of a job for frames that refer to them. -/
def keepScopes (w : World) (j : Job) : World :=
  match j.scopes? with
  | some (number, heap) => { w with heaps := w.heaps.insert number heap }
  | none => w

/-- Lets the first of some jobs make a step that can; the jobs before it are in reverse order. -/
def stepJobs? (b : Bridge) : List Job → List Job → Option (Bridge × List Job × Job × List Job)
  | _, [] => none
  | before, j :: after =>
      match j.advance? b with
      | some (b, j) => some (b, before, j, after)
      | none => stepJobs? b (j :: before) after

/-- The job that makes a step is one of them. -/
theorem exists_job_of_stepJobs? {b b' : Bridge} {jobs before before' after : List Job} {j' : Job}
    (h : stepJobs? b before jobs = some (b', before', j', after)) :
    ∃ passed j, jobs = passed ++ j :: after ∧ before' = passed.reverse ++ before ∧
      j.advance? b = some (b', j') := by
  induction jobs generalizing before with
  | nil => cases h
  | cons j rest ih =>
      unfold stepJobs? at h
      split at h
      · next hstep =>
          cases h
          exact ⟨[], j, rfl, rfl, hstep⟩
      · obtain ⟨passed, k, hrest, hbefore, hstep⟩ := ih h
        refine ⟨j :: passed, k, ?_, ?_, hstep⟩
        · rw [hrest, List.cons_append]
        · rw [hbefore, List.reverse_cons, List.append_assoc, List.singleton_append]

/-- One step of a job. A job that is over leaves. -/
def jobStep? (w : World) : Option (World × List Report) :=
  (stepJobs? w.bridge [] w.jobs).map fun (bridge, before, j, after) =>
    let w := { w with bridge }.keepScopes j
    match j.result? with
    | some result => ({ w with jobs := before.reverse ++ after }, [.finished j result])
    | none => ({ w with jobs := before.reverse ++ j :: after }, [])

/-- One step of anyone. -/
def step? (w : World) : Option (World × List Report) :=
  match w.dispatchStep? with
  | some next => some next
  | none => w.jobStep?

/-- At most so many steps, and what was seen on the way, newest first after `seen`. -/
def settleFrom (w : World) (seen : List Report) : Nat → World × List Report
  | 0 => (w, seen)
  | limit + 1 =>
      match w.step? with
      | none => (w, seen)
      | some (w, reports) => settleFrom w (reports.reverse ++ seen) limit

/-! ### Beginning and giving up -/

/-- May a thread begin a job? Not while the dispatcher is held, nor while it is at another one. -/
def isBusy (w : World) (thread : ThreadId) : Bool :=
  w.held || w.jobs.any fun j => j.thread = thread

def begin (w : World) (j : Job) : World :=
  { w with jobs := w.jobs ++ [j] }.keepScopes j

/-- Begins a run of a script on an interpreter with scopes of its own. -/
def beginScript (w : World) (thread : ThreadId) (i : Language.Interpreter) (script : Script) : World :=
  let i := { i with heapNumber := w.nextHeap }
  { w with nextHeap := w.nextHeap + 1 }.begin (.ofScript thread i script)

/-- Lets the jobs of a thread that wait give up. -/
def giveUp (w : World) (thread : ThreadId) : World :=
  let visit := fun (acc : Bridge × List Job) (j : Job) =>
    if j.thread = thread then
      match j.giveUp? acc.1 with
      | some (b, j) => (b, j :: acc.2)
      | none => (acc.1, j :: acc.2)
    else (acc.1, j :: acc.2)
  let (bridge, jobs) := w.jobs.foldl visit (w.bridge, [])
  { w with bridge, jobs := jobs.reverse }

/-- Do clients know that the job of a thread is held at a stop, other than the loading of a script? -/
def isAtStop (w : World) (thread : ThreadId) : Bool :=
  w.jobs.any fun j => j.thread = thread && j.atStop

/-- The threads with a job, in ascending order. -/
def waitingThreads (w : World) : List ThreadId :=
  (w.jobs.map Job.thread).mergeSort fun a b => a.number ≤ b.number

/-! ### Frames -/

/-- A published frame as a client keeps it: who published it, and its place among the frames of that thread. -/
structure Handle where
  thread : ThreadId
  slot : Nat
  deriving Repr, DecidableEq, Inhabited

/-- The frames on the stack of a thread, innermost first. -/
def handles (w : World) (thread : ThreadId) : Except Refusal (List Handle) :=
  (w.session.stackSlots thread).map fun slots => slots.map fun slot => ⟨thread, slot⟩

def published? (w : World) (h : Handle) : Option PublishedFrame :=
  (w.session.target.thread? h.thread).bind fun t => t.published[h.slot]?

/-- Reads the variables of a published frame. -/
def readVariables (w : World) (h : Handle) : List Variable × World :=
  let (read, session) := w.session.readVariables w.bindings h.thread h.slot
  (read, w.withSession session)

end World

end Pausepoint
