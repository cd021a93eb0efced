import Pausepoint.Proofs.World.Novelty
import Pausepoint.Proofs.World.Schedule
import Pausepoint.Proofs.World.Wakeup

/-!
# Pausepoint.Proofs.World.Upkeep

The breakpoints of a script follow the ones that are set.

Three kinds of commands change the breakpoints that the engine has for a script: those that its loading
brings, those of a breakpoint that is set, and those of one that is taken away. All of them go through the
queue, but the last two are sent only to scripts that are on a stack at that moment.
`breakpoints_follow` is the main result, about an interpreter that runs a script: whatever script it loads
follows a breakpoint from then on, if every change of it comes while that script is on a stack, and none
takes it away between the loading and the moment at which the loading brings it. `breakpoint_missed` is a
run in which a change comes while the script is on no stack.

A breakpoint is set, or taken away, in one move here: it is put into the store, the stacks are read and the
commands are submitted with nobody in between. Two control threads that change one breakpoint at once may
leave the store and the engine at odds. The number of the root script is one that the interpreter has given
out (`main.id.number < i.nextScript`), as where it is taken from `next_script_id`: otherwise the first script
that is included has the same number, and the engine keeps one list for both.

## Proof shape

* `Foresees` (in `Novelty`) — a script that is announced is new: the engine has nothing about it;
* `Upkeep.of_load` — so its loading brings what is set, and nothing else;
* `Upkeep.moveOrEnd` — from then on, once every command on its way has arrived, the script has the
  breakpoint exactly if that is set (`Session.KeepsUp`).
-/

namespace Pausepoint

namespace World

/-! ### A script that follows a breakpoint -/

/-- **The invariant** of a script and a breakpoint: as long as the session is not over, the script follows
the breakpoint. -/
structure Upkeep (id : ScriptId) (b : Breakpoint) (w : World) : Prop where
  abiding : w.Abiding
  follows : w.session.target.state ≠ .terminated → w.session.KeepsUp id b (w.engine.breakpointsOf id)

/-- **Every move keeps the invariant**, if it is no call or one that reaches the script. -/
theorem Upkeep.moveOrEnd {w w' : World} {act : Act} {id : ScriptId} {b : Breakpoint} (h : Upkeep id b w)
    (hid : id.number < 18446744073709551616) (hm : MoveOrEnd w act w')
    (hreaches : ∀ c ∈ act.call?, c.Reaches w.session id b) : Upkeep id b w' := by
  refine ⟨h.abiding.moveOrEnd hm, fun hlive => ?_⟩
  obtain ⟨-, ⟨task, session, -, hs, hb⟩ | ⟨session, -, hs, hb⟩ | ⟨-, hears, he⟩ | ⟨c, hc, rfl, hb⟩⟩ :=
    moveOrEnd_cases h.abiding.calm hm
  · have hs' : w'.session = session := congrArg Bridge.session hb
    rw [hs'] at hlive
    obtain ⟨hbefore, hopen, htask⟩ := h.abiding.of_perform hs hlive
    rw [hs', show w'.engine = effectOnEngine w.engine task from congrArg Bridge.engine hb,
      breakpointsOf_effect w.engine htask hid]
    exact (h.follows hbefore).perform hopen h.abiding.plain (by rintro rfl; exact htask) hs
  · have hs' : w'.session = session := congrArg Bridge.session hb
    have he' : w'.engine = w.engine := (congrArg Bridge.engine hb :)
    rw [hs'] at hlive
    obtain ⟨hbefore, hidle, e, rest, hevents, rfl⟩ := h.abiding.of_take hs hlive
    rw [hs', he']
    cases e with
    | notification n => exact (h.follows hbefore).report h.abiding.filed hidle hevents
    | command c =>
        exact (h.follows hbefore).command (by simpa [Target.isTerminated] using hbefore) hidle hevents
  · have hr := hears.reported
    rw [hr.target] at hlive
    rw [Session.KeepsUp, hr.pipeline, hr.breakpoints, Engine.breakpointsOf, he]
    exact h.follows hlive
  · have hs' : w'.session = c.run w.session := congrArg Bridge.session hb
    have he' : w'.engine = w.engine := (congrArg Bridge.engine hb :)
    rw [hs', (w.session.rereads_call c).state] at hlive
    obtain ⟨hopen, habides⟩ := h.abiding.live hlive
    rw [hs', he']
    exact (h.follows hlive).call hopen h.abiding.plain
      (fun hmem => habides _ (Session.mem_following.mp hmem)) hc (hreaches c rfl)

/-- A move that is no call, or a call that changes a breakpoint only while a script that it concerns is on a
published stack, and takes it away only when the loading of that script has brought it. A call is one move: the
store, the stacks and the queue are those of one moment. -/
def Reaching (id : ScriptId) (b : Breakpoint) (w : World) (act : Act) (w' : World) : Prop :=
  MoveOrEnd w act w' ∧ ∀ c ∈ act.call?, c.Reaches w.session id b

/-- **A script that is loaded** follows what is set. Its report finds the thread running or new. -/
theorem Upkeep.of_load {w loaded : World} {bound : Nat} (h : w.Foresees bound) {thread : ThreadId}
    {script : Snapshot} {root : Bool} {rest : List Event} {b : Breakpoint}
    (hevents : w.session.queue.events = .notification (.scriptReady thread script root) :: rest)
    (hfinds : (Notification.scriptReady thread script root).Finds (w.session.target.stateOf thread))
    (hid : script.id.number < 18446744073709551616) (hconcerns : b.Concerns script)
    (hload : MoveOrEnd w (.dispatch none) loaded) : Upkeep script.id b loaded := by
  refine ⟨h.abiding.moveOrEnd hload, fun hlive => ?_⟩
  obtain ⟨-, ⟨task, -, hact, -⟩ | ⟨session, -, hs, hb⟩ | ⟨hact, -⟩ | ⟨c, -, hact, -⟩⟩ :=
    moveOrEnd_cases h.abiding.calm hload
  · cases hact
  · have hs' : loaded.session = session := congrArg Bridge.session hb
    have he' : loaded.engine = w.engine := (congrArg Bridge.engine hb :)
    rw [hs'] at hlive
    obtain ⟨hbefore, hidle, e, rest', hevents', rfl⟩ := h.abiding.of_take hs hlive
    -- No report about a thread comes before the start of the engine.
    have hrunning : w.session.target.state = .running := by
      have hstarted := h.abiding.heralds.started hevents rfl
      cases hstate : w.session.target.state with
      | notStarted => exact absurd hstate hstarted
      | running => rfl
      | terminated => exact absurd hstate hbefore
    obtain ⟨rfl, rfl⟩ := List.cons.inj (hevents.symm.trans hevents')
    rw [hs', he']
    exact Session.keepsUp_of_load h.abiding.exact.indexed hrunning hidle hevents hfinds hconcerns
      (h.not_mem_prospect hbefore hevents hid b)
  · exact absurd rfl (hact none)
  · cases hact

/-- **A script follows what is set.** An interpreter runs a root script with a number that it has given out,
above those of the scripts that it knows, in a session that keeps duplicates. Breakpoints are set and taken
away for resources, at any time but one call at a time, and the session may end at any time. Some day the dispatcher takes the report that
a script is loaded, and finds its thread running or new. From then on every change of a breakpoint of the
resource reaches the script. Whenever nothing is queued or left to do, and the session is not over, the
script has the breakpoint exactly if it is set. -/
theorem breakpoints_follow {settings : DebuggerSettings} (hplain : settings.dedupeQueuedEvents = false)
    {breakpoints : List Breakpoint} {runner : ThreadId} {i : Language.Interpreter} {main : Script}
    (hi : i.Below main.id.number) (hnext : main.id.number < i.nextScript) {trace later : List Act}
    {w loaded w' : World} {thread : ThreadId} {script : Snapshot} {root : Bool} {rest : List Event}
    {b : Breakpoint} (h : Execution Proceeds (aboutToRun settings breakpoints runner i main) trace w)
    (hevents : w.session.queue.events = .notification (.scriptReady thread script root) :: rest)
    (hfinds : (Notification.scriptReady thread script root).Finds (w.session.target.stateOf thread))
    (hid : script.id.number < 18446744073709551616) (hconcerns : b.Concerns script)
    (hload : MoveOrEnd w (.dispatch none) loaded)
    (hlater : Execution (Reaching script.id b) loaded later w')
    (hlive : w'.session.target.state = .running) (hagenda : w'.session.worker.agenda = [])
    (hdrained : w'.session.queue.events = []) :
    b ∈ w'.engine.breakpointsOf script.id ↔ b ∈ w'.session.breakpoints.forResource b.resource := by
  obtain ⟨bound, hforesees⟩ := foresees_of_execution hplain hi hnext h
  have hkept : Upkeep script.id b w' :=
    hlater.state_invariant (Upkeep.of_load hforesees hevents hfinds hid hconcerns hload)
      fun ih hstep => ih.moveOrEnd hid hstep.1 hstep.2
  exact (hkept.follows (by rw [hlive]; nofun)).at_rest hagenda hdrained

/-! ### A breakpoint that is set during a load -/

/-- The engine starts, and a root script is about to be loaded. -/
def announcing : List Choice :=
  List.replicate 2 .job ++ List.replicate 2 .dispatch ++ List.replicate 4 .job

/-- The world in which the report of the script is next. -/
def announced : World :=
  ((aboutToRun {} [] ⟨1⟩ {} oneLiner).played announcing).2

/-- The world in which the report was taken. -/
def underLoad : World :=
  (announced.played [.dispatch]).2

/-- The world in which a callback of the load runs. -/
def insideCallback : World :=
  (underLoad.played [.dispatch]).2

/-- The first line of the script. -/
def firstLine : Breakpoint :=
  { resource := "main", line := 1 }

/-- The world in which a breakpoint was set there. -/
def setInside : World :=
  insideCallback.withSession (insideCallback.session.addBreakpoint firstLine).2

/-- Everything is dispatched, and the thread goes on. -/
def settling : List Choice :=
  List.replicate 11 .dispatch ++ List.replicate 2 .job ++ [.dispatch]

/-- A breakpoint that is set inside a callback of the load is there in the end. -/
theorem breakpoints_follow_underLoad : ∃ later,
    Execution (Reaching ⟨0⟩ firstLine) underLoad later (setInside.played settling).2 ∧
      firstLine ∈ (setInside.played settling).2.engine.breakpointsOf ⟨0⟩ := by
  have hquiet {start w : World} {trace : List Act} (h : Execution Moves start trace w)
      (hnone : ∀ act ∈ trace, act.call? = none) : Execution (Reaching ⟨0⟩ firstLine) start trace w :=
    h.restrict fun hmem hm => ⟨.move hm, fun c hc => by rw [hnone _ hmem] at hc; cases hc⟩
  have hset : Reaching ⟨0⟩ firstLine insideCallback (.call (.addBreakpoint firstLine)) setInside := by
    refine ⟨.move (.call _ _ nofun), fun c hc => ?_⟩
    cases hc
    exact fun _ _ => by decide +kernel
  have hlater := ((hquiet (execution_played underLoad [.dispatch]) (by decide +kernel)).next hset).append
    (hquiet (execution_played setInside settling) (by decide +kernel))
  have hload := moves_played_dispatch (w := announced) (by decide +kernel) (by decide +kernel)
  rw [show announced.session.worker.agenda.head? = none by decide +kernel] at hload
  have husual : ∀ act ∈ ((aboutToRun {} [] ⟨1⟩ {} oneLiner).played announcing).1,
      act.isUsual = true := by decide +kernel
  have hevents : announced.session.queue.events =
      [.notification (.scriptReady ⟨1⟩ oneLiner.snapshot true)] := by decide +kernel
  have hfinds : (Notification.scriptReady ⟨1⟩ oneLiner.snapshot true).Finds
      (announced.session.target.stateOf ⟨1⟩) := by
    rw [show announced.session.target.stateOf ⟨1⟩ = none by decide +kernel]
    exact nofun
  refine ⟨_, hlater, (breakpoints_follow (b := firstLine) rfl
    (Language.Interpreter.IsFresh.below ⟨rfl, rfl⟩ (by decide)) (by decide)
    ((execution_played _ announcing).restrict fun hmem hm => ⟨.move hm, husual _ hmem⟩) hevents hfinds
    (by decide) rfl (.move hload) hlater
    (by decide +kernel) (by decide +kernel) (by decide +kernel)).mpr (by decide +kernel)⟩

/-- One that is taken away there comes back, since its removal is queued in front of what the load
brings. -/
example :
    let w := ((aboutToRun {} [firstLine] ⟨1⟩ {} oneLiner).played (announcing ++
      [.dispatch, .dispatch, .call (.removeBreakpoint firstLine)] ++ List.replicate 4 .dispatch ++
      settling)).2
    w.session.worker.agenda = [] ∧ w.session.queue.events = [] ∧
      w.session.breakpoints.forResource "main" = [] ∧ w.engine.breakpointsOf ⟨0⟩ = [firstLine] := by
  decide +kernel

/-! ### A breakpoint that is set while its script is on no stack -/

/-- A thread reports that a script of a resource is loaded. -/
def Act.announces (id : ScriptId) (resource : String) : Act → Bool
  | .step _ (some (.reporting p)) (some (.waiting _)) =>
      match p.report with
      | .scriptReady _ script _ => script.id = id && script.resource = some resource
      | _ => false
  | _ => false

/-- A script that includes another one, which defines a function. -/
def including : Script :=
  { id := ⟨1⟩, source := "include lib\nlet a = 1\ncall f\nprint a", resource := some "main" }

/-- An interpreter that has the included script. -/
def library : Language.Interpreter :=
  { nextScript := 2, resources := Table.empty.insert "lib" "fn f\n  print 1\nend" }

/-- The only line of the function. -/
def functionBody : Breakpoint :=
  { resource := "lib", line := 2 }

/-- The script runs to a breakpoint behind the inclusion. Then one is set in the function. -/
def missing : List Choice :=
  .call (.addBreakpoint { resource := "main", line := 2 }) ::
    .begin (.ofScript ⟨1⟩ library including) :: .job :: List.replicate 2 .dispatch ++
    List.replicate 5 .job ++ List.replicate 14 .dispatch ++ List.replicate 2 .job ++ .dispatch ::
    List.replicate 8 .job ++ List.replicate 9 .dispatch ++ List.replicate 2 .job ++ .dispatch ::
    List.replicate 8 .job ++ List.replicate 3 .dispatch ++ [.call (.addBreakpoint functionBody)]

/-- The world after that. -/
def missed : World :=
  ((create {} true).played missing).2

/-- **A breakpoint is missed.** An interpreter runs a script, whose thread stops at a line after the
included script has left the stack. A breakpoint of the included script is set, and everything is
dispatched, but the engine does not get it. -/
theorem breakpoint_missed :
    Execution Moves (create {} true) ((create {} true).played missing).1 missed ∧
      (((create {} true).played missing).1.any (Act.announces ⟨2⟩ "lib")) = true ∧
      missed.session.target.state = .running ∧ missed.session.worker.agenda = [] ∧
      missed.session.queue.events = [] ∧
      missed.session.breakpoints.forResource "lib" = [functionBody] ∧
      missed.engine.breakpointsOf ⟨2⟩ = [] :=
  ⟨execution_played _ missing, by decide +kernel⟩

end World

end Pausepoint
