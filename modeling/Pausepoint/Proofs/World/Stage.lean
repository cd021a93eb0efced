import Pausepoint.Proofs.Language.Framing
import Pausepoint.Proofs.World.Installation
import Pausepoint.Proofs.World.Transparency

/-!
# Pausepoint.Proofs.World.Stage

Where a run is between the engine and the reference.

Between two moves, much of a pause may have happened already: it was reported, dispatched, decided on,
and the decision may be on its way back. `Stage` lists these situations. In each of them it says which
commands are on their way to the engine, what is in the slot of the thread, and how far the reference
has come:

* nothing is on its way while a call does not wait, nor while its report has not been dispatched;
* after a load, the breakpoints of the script come first and the decision of the session last
  (`Stage.installing`), so that the slot is filled only once they are all there (`Stage.installed`);
* after a stop, the only thing on its way is the answer to it (`Stage.answering`).

The steps of the dispatcher and of the call keep to it (`Stage.perform`, `Stage.report`,
`Stage.command`, `Stage.call`).
-/

namespace Pausepoint

open Pausepoint.Language

/-- The pause of a script that was loaded. -/
def Pause.atLoad (thread : ThreadId) (script : Snapshot) (depth : Nat) : Pause :=
  { report := .scriptReady thread script (depth == 0), depth, keepStep := true }

def Pause.atLine (thread : ThreadId) (depth : Nat) (frames : List Frame) (reason : Reason) : Pause :=
  { report := .suspended thread frames reason, depth, keepStep := false }

/-- The pause that a checkpoint is, by the reference. -/
inductive Plan.Pauses (plan : Plan) (thread : ThreadId) (pending : Option StepRequest) :
    Checkpoint → Pause → Prop
  | load {script : Snapshot} {depth : Nat} (ht : plan.tracks script = true) :
      Pauses plan thread pending (.load script depth) (.atLoad thread script depth)
  | line {script : Snapshot} {number depth : Nat} {frames : List Frame} {reason : Reason}
      (hreason : plan.reason? script number depth pending = some reason) :
      Pauses plan thread pending (.line script number depth frames)
        (.atLine thread depth frames reason)

/-- Reference and engine are about to come to these checkpoints. -/
structure Plan.Reaches (plan : Plan) (total : List Checkpoint) (answers : List Mode)
    (halts : List Halt) (e : Engine) (pending : Option StepRequest) (left : List Checkpoint) : Prop where
  keeps : plan.Keeps total answers halts pending left
  ready : ∃ seen next, Ahead plan.root seen next left ∧ Installed plan e seen next

/-- **Where a run is**, by the checkpoints of its job that are to come and the place of its call. A
checkpoint is among those to come until its call has returned. -/
inductive Stage (plan : Plan) (thread : ThreadId) (total : List Checkpoint) (b : Bridge)
    (answers : List Mode) : List Halt → List Checkpoint → Option Phase → Prop
  /-- The next call is to come. -/
  | ahead {halts : List Halt} {points : List Checkpoint} (hp : b.session.pipeline = [])
      (hr : plan.Reaches total answers halts b.engine (b.engine.steps.get? thread) points) :
      Stage plan thread total b answers halts points none
  /-- Nothing is decided about it. -/
  | entering {halts : List Halt} {points : List Checkpoint} {r : Request}
      (hp : b.session.pipeline = [])
      (hr : plan.Reaches total answers halts b.engine (b.engine.steps.get? thread) points) :
      Stage plan thread total b answers halts points (some (.entering r))
  | opening {halts : List Halt} {point : Checkpoint} {left : List Checkpoint} {p : Pause}
      (hp : b.session.pipeline = [])
      (hr : plan.Reaches total answers halts b.engine (b.engine.steps.get? thread) (point :: left))
      (hpause : plan.Pauses thread (b.engine.steps.get? thread) point p) :
      Stage plan thread total b answers halts (point :: left) (some (.opening p))
  | reporting {halts : List Halt} {point : Checkpoint} {left : List Checkpoint} {p : Pause}
      (hp : b.session.pipeline = [])
      (hr : plan.Reaches total answers halts b.engine (b.engine.steps.get? thread) (point :: left))
      (hpause : plan.Pauses thread (b.engine.steps.get? thread) point p) :
      Stage plan thread total b answers halts (point :: left) (some (.reporting p))
  /-- A load was reported. -/
  | loading {halts : List Halt} {script : Snapshot} {depth : Nat} {left : List Checkpoint}
      (hp : b.session.pipeline = []) (hslot : b.engine.slots.get? thread = some none)
      (ht : plan.tracks script = true)
      (hr : plan.Reaches total answers halts b.engine (b.engine.steps.get? thread)
        (.load script depth :: left)) :
      Stage plan thread total b answers halts (.load script depth :: left)
        (some (.waiting (.atLoad thread script depth)))
  /-- It was dispatched, and its breakpoints and a decision are on their way. -/
  | installing {halts : List Halt} {script : Snapshot} {depth : Nat} {left : List Checkpoint}
      {cs : List Command} {seen : List Snapshot} {next : Nat}
      (hp : b.session.pipeline = cs ++ [.resume thread (plan.loadMode script)])
      (hslot : b.engine.slots.get? thread = some none)
      (hlane : lane thread b.session.queue.events = [])
      (ht : plan.tracks script = true)
      (hk : plan.Keeps total answers halts
        (plan.afterLoad script depth (b.engine.steps.get? thread)) left)
      (ha : Ahead plan.root (script :: seen) (script.id.number + 1) left)
      (hi : Installing plan b.engine seen next script cs) :
      Stage plan thread total b answers halts (.load script depth :: left)
        (some (.waiting (.atLoad thread script depth)))
  /-- The breakpoints are installed, and the decision has come. -/
  | installed {halts : List Halt} {script : Snapshot} {depth : Nat} {left : List Checkpoint}
      (hp : b.session.pipeline = [])
      (hslot : b.engine.slots.get? thread = some (some (plan.loadMode script)))
      (ht : plan.tracks script = true)
      (hr : plan.Reaches total answers halts b.engine
        (plan.afterLoad script depth (b.engine.steps.get? thread)) left) :
      Stage plan thread total b answers halts (.load script depth :: left)
        (some (.waiting (.atLoad thread script depth)))
  /-- A stop was reported. -/
  | stopped {halts : List Halt} {script : Snapshot} {number depth : Nat} {frames : List Frame}
      {reason : Reason} {left : List Checkpoint}
      (hp : b.session.pipeline = []) (hslot : b.engine.slots.get? thread = some none)
      (hreason : plan.reason? script number depth (b.engine.steps.get? thread) = some reason)
      (hr : plan.Reaches total answers halts b.engine (b.engine.steps.get? thread)
        (.line script number depth frames :: left)) :
      Stage plan thread total b answers (halts ++ [⟨script.resource, number, depth, reason⟩])
        (.line script number depth frames :: left)
        (some (.waiting (.atLine thread depth frames reason)))
  /-- It was answered, and the answer is on its way. -/
  | answering {halts : List Halt} {script : Snapshot} {number depth : Nat} {frames : List Frame}
      {reason : Reason} {left : List Checkpoint} {mode : Mode}
      (hp : b.session.pipeline = [.resume thread mode]) (hfollowing : b.session.following = [])
      (hslot : b.engine.slots.get? thread = some none)
      (hlane : lane thread b.session.queue.events = [])
      (hr : plan.Reaches total answers halts b.engine (mode.begins depth) left) :
      Stage plan thread total b answers halts (.line script number depth frames :: left)
        (some (.waiting (.atLine thread depth frames reason)))
  /-- The answer has come. -/
  | answered {halts : List Halt} {script : Snapshot} {number depth : Nat} {frames : List Frame}
      {reason : Reason} {left : List Checkpoint} {mode : Mode}
      (hp : b.session.pipeline = []) (hslot : b.engine.slots.get? thread = some (some mode))
      (hr : plan.Reaches total answers halts b.engine (mode.begins depth) left) :
      Stage plan thread total b answers halts (.line script number depth frames :: left)
        (some (.waiting (.atLine thread depth frames reason)))
  /-- A decision was taken up. -/
  | confirming {halts : List Halt} {point : Checkpoint} {left : List Checkpoint} {mode : Mode}
      (hp : b.session.pipeline = [])
      (hr : plan.Reaches total answers halts b.engine (b.engine.steps.get? thread) left) :
      Stage plan thread total b answers halts (point :: left) (some (.confirming mode))
  /-- The call is over, whether it was a pause or not. -/
  | returned {halts : List Halt} {point : Checkpoint} {left : List Checkpoint} {reply : Reply}
      (hp : b.session.pipeline = [])
      (hr : plan.Reaches total answers halts b.engine (b.engine.steps.get? thread) left) :
      Stage plan thread total b answers halts (point :: left) (some (.returned reply))

/-- **What a plan asks of a session and its engine**: they have its settings and its breakpoints. -/
structure Plan.Serves (plan : Plan) (b : Bridge) : Prop where
  live : b.session.IsLive
  options : b.session.target.options = plan.settings.targetOptions
  store : b.session.breakpoints.Holds plan.breakpoints
  tracked : b.engine.isTracked = plan.tracks

/-- The halt that a report is, by the frame on top of the stack that it shows. -/
def Notification.halt? : Notification → Option Halt
  | .suspended _ (frame :: below) reason =>
      some ⟨frame.script.resource, frame.line, below.length + 1, reason⟩
  | _ => none

/-- The halt that a step of a call is: it is reported, and the call waits from then on. -/
def Phase.halts : Option Phase → Option Phase → List Halt
  | some (.reporting p), some (.waiting _) => p.report.halt?.toList
  | _, _ => []

section

variable {plan : Plan} {thread : ThreadId} {total : List Checkpoint} {b b' : Bridge}
  {answers : List Mode} {halts : List Halt} {e e' : Engine} {pending : Option StepRequest}
  {points left : List Checkpoint} {phase : Option Phase}

theorem Plan.Reaches.of_same (h : plan.Reaches total answers halts e pending left)
    (he : e'.breakpoints = e.breakpoints) : plan.Reaches total answers halts e' pending left := by
  obtain ⟨hkeeps, seen, next, hahead, hinstalled⟩ := h
  exact ⟨hkeeps, seen, next, hahead, hinstalled.of_same he⟩

/-! ### Steps of the dispatcher -/

/-- A decision that is handed over is no matter of steps and breakpoints. -/
theorem World.frame_resume (e : Engine) (id : ThreadId) (mode : Mode) :
    (effectOnEngine e (.forward (.resume id mode))).steps = e.steps ∧
      (effectOnEngine e (.forward (.resume id mode))).breakpoints = e.breakpoints := by
  have hne : Command.resume id mode ≠ marker := by
    intro h
    cases h
  rw [effectOnEngine, if_neg hne, Engine.apply]
  split
  · exact ⟨rfl, rfl⟩
  · exact ⟨rfl, rfl⟩

/-- A breakpoint is no matter of steps and slots. -/
theorem World.frame_setBreakpoint (e : Engine) (id : ScriptId) (b : Breakpoint)
    (action : BreakpointAction) :
    (effectOnEngine e (.forward (.setBreakpoint id b action))).steps = e.steps ∧
      (effectOnEngine e (.forward (.setBreakpoint id b action))).slots = e.slots := by
  unfold effectOnEngine
  dsimp only
  split
  · exact ⟨rfl, rfl⟩
  · exact ⟨rfl, rfl⟩

namespace Stage

/-- A step that nobody notices. -/
theorem of_same (h : Stage plan thread total b answers halts points phase)
    (hp : b'.session.pipeline = b.session.pipeline)
    (hfollowing : b.session.following = [] → b'.session.following = [])
    (hlane : lane thread b.session.queue.events = [] → lane thread b'.session.queue.events = [])
    (hslots : b'.engine.slots.get? thread = b.engine.slots.get? thread)
    (hsteps : b'.engine.steps.get? thread = b.engine.steps.get? thread)
    (hbreakpoints : b'.engine.breakpoints = b.engine.breakpoints) :
    Stage plan thread total b' answers halts points phase := by
  cases h with
  | ahead hnil hr =>
      rw [← hsteps] at hr
      exact .ahead (hp.trans hnil) (hr.of_same hbreakpoints)
  | entering hnil hr =>
      rw [← hsteps] at hr
      exact .entering (hp.trans hnil) (hr.of_same hbreakpoints)
  | opening hnil hr hpause =>
      rw [← hsteps] at hr hpause
      exact .opening (hp.trans hnil) (hr.of_same hbreakpoints) hpause
  | reporting hnil hr hpause =>
      rw [← hsteps] at hr hpause
      exact .reporting (hp.trans hnil) (hr.of_same hbreakpoints) hpause
  | loading hnil hslot ht hr =>
      rw [← hsteps] at hr
      exact .loading (hp.trans hnil) (hslots.trans hslot) ht (hr.of_same hbreakpoints)
  | installing hcs hslot hempty ht hk ha hi =>
      rw [← hsteps] at hk
      exact .installing (hp.trans hcs) (hslots.trans hslot) (hlane hempty) ht hk ha
        (hi.of_same hbreakpoints)
  | installed hnil hslot ht hr =>
      rw [← hsteps] at hr
      exact .installed (hp.trans hnil) (hslots.trans hslot) ht (hr.of_same hbreakpoints)
  | stopped hnil hslot hreason hr =>
      rw [← hsteps] at hr hreason
      exact .stopped (hp.trans hnil) (hslots.trans hslot) hreason (hr.of_same hbreakpoints)
  | answering hone hnone hslot hempty hr =>
      exact .answering (hp.trans hone) (hfollowing hnone) (hslots.trans hslot) (hlane hempty)
        (hr.of_same hbreakpoints)
  | answered hnil hslot hr =>
      exact .answered (hp.trans hnil) (hslots.trans hslot) (hr.of_same hbreakpoints)
  | confirming hnil hr =>
      rw [← hsteps] at hr
      exact .confirming (hp.trans hnil) (hr.of_same hbreakpoints)
  | returned hnil hr =>
      rw [← hsteps] at hr
      exact .returned (hp.trans hnil) (hr.of_same hbreakpoints)

/-- **A task of the dispatcher**: it may hand over the command in front. -/
theorem perform (h : Stage plan thread total b answers halts points phase)
    (hpeaceful : b.session.Peaceful) {task : Task} {session : Session}
    (hs : b.session.perform? = some (task, session))
    (hlane : lane thread session.queue.events = lane thread b.session.queue.events) :
    Stage plan thread total { session, engine := World.effectOnEngine b.engine task } answers halts
      points phase := by
  have hmild : task.IsMild := by
    obtain ⟨rest, hagenda, -⟩ := Session.perform?_cases hs
    exact hpeaceful.agenda task (by rw [hagenda]; exact List.mem_cons_self)
  have hfollowing (hnone : b.session.following = []) : session.following = [] := by
    rw [Session.following_perform hs] at hnone
    exact (List.append_eq_nil_iff.mp hnone).2
  have hempty (hnil : lane thread b.session.queue.events = []) :
      lane thread session.queue.events = [] := hlane.trans hnil
  -- A task leaves the pipeline as it is, thins it, or takes its first command off.
  have hcases := Session.pipeline_perform hpeaceful.queue_open hmild hs
  cases hforward : task.forwarded? with
  | none =>
      have hne : task ≠ .forwardClosed := by
        rintro rfl
        exact hmild
      rw [World.effectOnEngine_of_quiet _ hforward hne]
      rw [hforward] at hcases
      rcases hcases with hsame | ⟨-, hthins⟩
      · exact h.of_same hsame.symm hfollowing hempty rfl rfl rfl
      -- A follow-up was dropped, so that there is one, and its script is being loaded.
      · cases h with
        | ahead hnil | entering hnil | opening hnil | reporting hnil | confirming hnil
        | returned hnil | loading hnil | installed hnil | stopped hnil | answered hnil => exact absurd hnil hthins.ne_nil
        | installing hcs hslot hnil ht hk ha hi =>
            rw [hcs] at hthins
            obtain ⟨cs', hcs', hthins'⟩ := hthins.of_snoc fun hmem => by
              obtain ⟨b, -, -, hb⟩ := hi.only _ hmem
              cases hb
            exact .installing hcs' hslot (hempty hnil) ht hk ha (hi.thins hthins')
        | answering hone =>
            rw [hone, ← List.nil_append [Command.resume thread _]] at hthins
            obtain ⟨cs', -, hthins'⟩ := hthins.of_snoc List.not_mem_nil
            exact absurd rfl hthins'.ne_nil
  | some c =>
      have htask : task = .forward c := by
        cases task <;> simp_all [Task.forwarded?]
      subst htask
      rcases hcases with hsplit | ⟨⟨c', hc'⟩, -⟩
      · replace hsplit : b.session.pipeline = c :: session.pipeline := hsplit
        cases h with
        | ahead hnil | entering hnil | opening hnil | reporting hnil | confirming hnil
        | returned hnil | loading hnil | installed hnil | stopped hnil | answered hnil =>
            rw [hnil] at hsplit
            cases hsplit
        | @installing _ script depth left cs seen next hcs hslot hnil ht hk ha hi =>
            rw [hcs] at hsplit
            -- The last command of a load is the decision on it; those before it install breakpoints.
            cases cs with
            | nil =>
                obtain ⟨rfl, hrest⟩ := List.cons.inj hsplit
                obtain ⟨hsteps, hbreakpoints⟩ :=
                  World.frame_resume b.engine thread (plan.loadMode script)
                refine .installed hrest.symm (World.apply_resume _ hslot) ht ?_
                refine Plan.Reaches.of_same (e := b.engine) ?_ hbreakpoints
                rw [hsteps]
                exact ⟨hk, _, _, ha, hi.finish⟩
            | cons d cs =>
                obtain ⟨rfl, hrest⟩ := List.cons.inj hsplit
                have hinstall := hi.install
                obtain ⟨bp, -, -, rfl⟩ := hi.only d List.mem_cons_self
                obtain ⟨hsteps, hslots⟩ := World.frame_setBreakpoint b.engine script.id bp .add
                refine .installing hrest.symm ?_ (hempty hnil) ht ?_ ha hinstall
                · rw [hslots]
                  exact hslot
                · rw [hsteps]
                  exact hk
        | answering hone _ hslot _ hr =>
            rw [hone] at hsplit
            obtain ⟨rfl, hrest⟩ := List.cons.inj hsplit
            exact .answered hrest.symm (World.apply_resume _ hslot)
              (hr.of_same (World.frame_resume b.engine thread _).2)
      · cases hc'

/-- **A report is dispatched**: only that of a load makes a difference. -/
theorem report (h : Stage plan thread total b answers halts points phase) (hserves : plan.Serves b)
    (ha : b.session.Agrees) (hidle : b.session.worker.agenda = []) {n : Notification}
    {rest : List Event} (hevents : b.session.queue.events = .notification n :: rest)
    (hwaits : n.isPause = true → n.thread? = some thread ∧
      b.engine.slots.get? thread = some none ∧ ∃ p, phase = some (.waiting p) ∧ p.report = n) :
    Stage plan thread total
      { b with session := (b.session.withEvents rest).handle (.notification n) } answers halts
      points phase := by
  obtain ⟨hpipeline, hfollowing⟩ := Session.pipeline_report hidle hevents
  by_cases hload : ∃ id script root, n = .scriptReady id script root
  · obtain ⟨id, script, root, rfl⟩ := hload
    obtain ⟨hid, hslot, p, hp, hn⟩ := hwaits rfl
    obtain rfl := Option.some.inj hid
    have hfirst : Notification.scriptReady id script root ∈ lane id b.session.queue.events := by
      rw [hevents, lane_cons_self rfl]
      exact List.mem_cons_self
    cases h with
    | ahead | entering | opening | reporting | confirming | returned => cases hp
    | installing _ _ hempty =>
        rw [hempty] at hfirst
        cases hfirst
    | installed _ hdecided =>
        rw [hslot] at hdecided
        cases hdecided
    | stopped | answering | answered =>
        cases hp
        cases hn
    | @loading _ _ depth left hnil _ ht hr =>
        cases hp
        cases hn
        obtain ⟨hkeeps, seen, next, ⟨hnew, hroot, hahead⟩, hinstalled⟩ := hr
        obtain ⟨hrun, hfinds⟩ := ha.head_finds hserves.live hevents rfl
        obtain ⟨-, -, -, -, hfollow⟩ :=
          Target.moves_of_scriptReady ha.indexed hrun b.session.breakpoints script (depth == 0) hfinds
        -- The script is tracked, so its frame is shown, and the session installs its breakpoints.
        have hshown : (b.session.target.options.showDynamicCode || !script.isDynamic) = true := by
          rw [hserves.options, Bool.or_comm]
          exact ht
        have hmode : b.session.target.modeFor (depth == 0) = plan.loadMode script := by
          unfold Target.modeFor Plan.loadMode Plan.holdsFirst
          rw [hserves.options, hroot]
          rfl
        rw [if_pos hshown, hmode] at hfollow
        refine .installing ?_ hslot ?_ ht hkeeps.load hahead
          (hinstalled.begin hnew (Target.mem_installCommands hserves.store script))
        · rw [hpipeline, hnil, List.nil_append]
          exact hfollow
        · rw [Session.queue_handle, Session.events_withEvents]
          exact ha.lane_of_pause hevents rfl rfl
  -- Other reports bring no commands, so the stage is the same.
  · have hne (id script root) : n ≠ .scriptReady id script root :=
      fun he => hload ⟨id, script, root, he⟩
    rw [Target.followUps_of_ne _ _ hne] at hpipeline hfollowing
    refine h.of_same (hpipeline.trans (List.append_nil _)) (fun _ => hfollowing) ?_ rfl rfl rfl
    intro hempty
    rw [Session.queue_handle, Session.events_withEvents]
    rw [hevents, ← List.singleton_append, lane_append] at hempty
    exact (List.append_eq_nil_iff.mp hempty).2

/-- **A command is dispatched**, which is delivered: a decision finds the thread that waits for it. -/
theorem command (h : Stage plan thread total b answers halts points phase) (hserves : plan.Serves b)
    (hindexed : b.session.target.registry.Indexed) (hidle : b.session.worker.agenda = [])
    {c : Command} {rest : List Event} (hevents : b.session.queue.events = .command c :: rest)
    (hsuspended : b.engine.slots.get? thread = some none → (∃ p, phase = some (.waiting p)) →
      lane thread b.session.queue.events = [] →
        b.session.target.stateOf thread = some .suspended) :
    Stage plan thread total
      { b with session := (b.session.withEvents rest).handle (.command c) } answers halts points
      phase := by
  obtain ⟨hbefore, hpipeline, hfollowing⟩ := Session.pipeline_command hidle hevents
  have hterm := Session.isTerminated_eq_false hserves.live
  have hdecision (mode : Mode) (hs : b.session.target.stateOf thread = some .suspended) :
      (b.session.target.handleCommand (.resume thread mode)).1.deliver = true := by
    obtain ⟨-, -, -, heffects⟩ := Target.moves_of_resume hindexed hterm mode hs
    rw [heffects]
  have hbreakpoint (id : ScriptId) (bp : Breakpoint) (action : BreakpointAction) :
      (b.session.target.handleCommand (.setBreakpoint id bp action)).1.deliver = true := by
    simp only [Target.handleCommand, hterm]
    rfl
  have hlane (hempty : lane thread b.session.queue.events = []) :
      lane thread ((b.session.withEvents rest).handle (.command c)).queue.events = [] := by
    rw [hevents, lane_cons_command] at hempty
    rw [Session.queue_handle, Session.events_withEvents]
    exact hempty
  -- Every command in the pipeline is delivered, so taking it leaves the pipeline as it is.
  suffices hdeliver : (b.session.target.handleCommand c).1.deliver = true by
    rw [if_pos hdeliver] at hpipeline
    exact h.of_same (hpipeline.trans hbefore.symm) (fun _ => hfollowing) hlane rfl rfl rfl
  cases h with
  | ahead hnil | entering hnil | opening hnil | reporting hnil | confirming hnil | returned hnil
  | loading hnil | installed hnil | stopped hnil | answered hnil =>
      rw [hnil] at hbefore
      cases hbefore
  | @installing _ script depth left cs seen next hcs hslot hempty ht hk ha hi =>
      rw [hbefore] at hcs
      cases cs with
      | nil =>
          obtain ⟨rfl, -⟩ := List.cons.inj hcs
          exact hdecision _ (hsuspended hslot ⟨_, rfl⟩ hempty)
      | cons d cs =>
          obtain ⟨rfl, -⟩ := List.cons.inj hcs
          obtain ⟨bp, -, -, rfl⟩ := hi.only c List.mem_cons_self
          exact hbreakpoint _ _ _
  | answering hone _ hslot hempty =>
      rw [hbefore] at hone
      obtain ⟨rfl, -⟩ := List.cons.inj hone
      exact hdecision _ (hsuspended hslot ⟨_, rfl⟩ hempty)

end Stage

/-! ### Steps of the call -/

/-- Why the engine holds a line is why the plan does. -/
theorem Plan.reason?_eq_stopReason {script : Snapshot} (htracked : plan.tracks script = true)
    (hready : plan.Ready e script) {number : Nat} (hnumber : 0 < number) (depth : Nat) :
    plan.reason? script number depth (e.steps.get? thread) =
      e.stopReason thread script.id number depth := by
  unfold Plan.reason? Engine.stopReason
  rw [if_pos htracked, hready.any_hits hnumber]
  cases e.steps.get? thread with
  | none => rfl
  | some step => rfl

/-- **The engine decides about a checkpoint as the plan does.** -/
theorem Plan.Reaches.decides {point : Checkpoint} {r : Request}
    (h : plan.Reaches total answers halts e (e.steps.get? thread) (point :: left))
    (hopen : e.closed = none) (htracked : e.isTracked = plan.tracks)
    (hrequest : point.request? = some r) :
    (∃ p, e.decide thread r = .pause p ∧ plan.Pauses thread (e.steps.get? thread) point p) ∨
      e.decide thread r = .pass ∧
        plan.Reaches total answers halts e (e.steps.get? thread) left := by
  obtain ⟨hkeeps, seen, next, hahead, hinstalled⟩ := h
  cases point with
  | started | ended => cases hrequest
  | load script depth =>
      obtain rfl := Option.some.inj hrequest
      obtain ⟨hnew, -, hahead⟩ := hahead
      rcases Engine.decide_of_open hopen thread (.load script depth) with
        ⟨p, hdecide, hp, ht⟩ | ⟨hdecide, hnone⟩
      · obtain rfl := Option.some.inj hp
        rw [htracked] at ht
        exact .inl ⟨_, hdecide, .load ht⟩
      · have ht : plan.tracks script = false := by
          rw [← htracked, Bool.eq_false_iff]
          intro ht
          cases hnone ht
        have hsame : plan.afterLoad script depth (e.steps.get? thread) = e.steps.get? thread := by
          rw [Plan.afterLoad, ht]
          rfl
        have hkeeps := hkeeps.load
        rw [hsame] at hkeeps
        exact .inr ⟨hdecide, hkeeps, _, _, hahead, hinstalled.skip hnew ht⟩
  | line script number depth frames =>
      obtain rfl := Option.some.inj hrequest
      obtain ⟨hseen, ⟨hnumber, -⟩, hahead⟩ := hahead
      -- The breakpoints of a tracked script are installed by the time its lines run.
      have hsame (ht : plan.tracks script = true) :
          plan.reason? script number depth (e.steps.get? thread) =
            e.stopReason thread script.id number depth :=
        Plan.reason?_eq_stopReason ht (hinstalled.ready script hseen ht) hnumber depth
      rcases Engine.decide_of_open hopen thread (.line script number depth frames) with
        ⟨p, hdecide, hp, ht⟩ | ⟨hdecide, hnone⟩
      · obtain ⟨reason, hreason, rfl⟩ := Option.map_eq_some_iff.mp hp
        rw [htracked] at ht
        exact .inl ⟨_, hdecide, .line ((hsame ht).trans hreason)⟩
      · have hpass : plan.reason? script number depth (e.steps.get? thread) = none := by
          cases ht : plan.tracks script with
          | false =>
              rw [Plan.reason?, ht]
              rfl
          | true =>
              rw [hsame ht]
              rw [← htracked] at ht
              exact Option.map_eq_none_iff.mp (hnone ht)
        exact .inr ⟨hdecide, hkeeps.pass hpass, _, _, hahead, hinstalled⟩

/-- A line that holds the script is reported as it is. -/
theorem Plan.Reaches.halt?_eq {script : Snapshot} {number depth : Nat} {frames : List Frame}
    (h : plan.Reaches total answers halts e pending (.line script number depth frames :: left))
    (reason : Reason) :
    (Notification.suspended thread frames reason).halt? =
      some ⟨script.resource, number, depth, reason⟩ := by
  obtain ⟨-, seen, next, ⟨-, ⟨-, hdepth, frame, below, rfl, rfl, rfl⟩, -⟩, -⟩ := h
  rw [← hdepth]
  rfl

/-- The step that is pending once a decision was taken up. -/
theorem Engine.steps_takeUp (e : Engine) (thread : ThreadId) (p : Pause) (mode : Mode) :
    (e.takeUp thread p mode).steps.get? thread =
      if mode.isStep then some ⟨mode, p.depth⟩
      else if p.keepStep then e.steps.get? thread else none := by
  unfold takeUp
  dsimp only
  split
  · exact (Table.get?_insert _ _ _ _).trans (if_pos rfl)
  · split
    · rfl
    · exact (Table.get?_erase _ _ _).trans (if_pos rfl)

theorem Engine.breakpoints_takeUp (e : Engine) (thread : ThreadId) (p : Pause) (mode : Mode) :
    (e.takeUp thread p mode).breakpoints = e.breakpoints := by
  unfold takeUp
  dsimp only
  split
  · rfl
  · split <;> rfl

theorem Plan.steps_atLoad (e : Engine) {script : Snapshot} (ht : plan.tracks script = true)
    (depth : Nat) :
    (e.takeUp thread (.atLoad thread script depth) (plan.loadMode script)).steps.get? thread =
      plan.afterLoad script depth (e.steps.get? thread) := by
  rw [Engine.steps_takeUp]
  unfold Plan.loadMode Plan.afterLoad
  rw [ht]
  cases plan.holdsFirst script with
  | false => rfl
  | true => rfl

theorem Mode.steps_atLine (e : Engine) (depth : Nat) (frames : List Frame) (reason : Reason)
    (mode : Mode) :
    (e.takeUp thread (.atLine thread depth frames reason) mode).steps.get? thread =
      mode.begins depth :=
  e.steps_takeUp thread _ mode

/-- **A step of the call.** -/
theorem Stage.call {point : Checkpoint} {phase phase' : Phase}
    (h : Stage plan thread total b answers halts (point :: left) (some phase))
    (hserves : plan.Serves b) (hsmooth : Smooth thread b (point :: left) (some phase))
    (hslot : ∀ p, phase = .reporting p → b.engine.slots.get? thread = some none)
    (hcall : CallStep b thread (some phase) b' (some phase')) :
    Stage plan thread total b' answers (halts ++ Phase.halts (some phase) (some phase'))
      (point :: left) (some phase') := by
  -- Only one step is a halt.
  have hquiet (hnone : Phase.halts (some phase) (some phase') = [])
      (hstage : Stage plan thread total b' answers halts (point :: left) (some phase')) :
      Stage plan thread total b' answers (halts ++ Phase.halts (some phase) (some phase'))
        (point :: left) (some phase') := by
    rw [hnone, List.append_nil]
    exact hstage
  cases hcall with
  | @refuse r cause hd =>
      rcases Engine.decide_of_open hsmooth.isOpen thread r with ⟨p, hp, -⟩ | ⟨hp, -⟩
      · cases hd.symm.trans hp
      · cases hd.symm.trans hp
  | @pass r hd =>
      obtain ⟨-, -, hrequest⟩ := hsmooth.underway nofun
      cases h with
      | entering hp hr =>
          rcases hr.decides hsmooth.isOpen hserves.tracked hrequest with ⟨p, hpause, -⟩ | ⟨-, hpass⟩
          · cases hd.symm.trans hpause
          · exact hquiet rfl (.returned hp hpass)
  | @pause r p hd =>
      obtain ⟨-, -, hrequest⟩ := hsmooth.underway nofun
      cases h with
      | entering hp hr =>
          rcases hr.decides hsmooth.isOpen hserves.tracked hrequest with ⟨q, hq, hpause⟩ | ⟨hpass, -⟩
          · cases hd.symm.trans hq
            exact hquiet rfl (.opening hp hr hpause)
          · cases hd.symm.trans hpass
  | openSlot p =>
      cases h with
      | opening hp hr hpause => exact hquiet rfl (.reporting hp (hr.of_same rfl) hpause)
  | @report p hok =>
      obtain ⟨hpipeline, -⟩ := Session.pipeline_notify b.session p.report
      cases h with
      | reporting hp hr hpause =>
          rw [← hpipeline] at hp
          cases hpause with
          | load ht => exact hquiet rfl (.loading hp (hslot _ rfl) ht hr)
          | @line script number depth frames reason hreason =>
              have hhalt : Phase.halts (some (.reporting (.atLine thread depth frames reason)))
                  (some (.waiting (.atLine thread depth frames reason))) =
                    [⟨script.resource, number, depth, reason⟩] := by
                show ((Notification.suspended thread frames reason).halt?).toList = _
                rw [hr.halt?_eq reason]
                rfl
              rw [hhalt]
              exact .stopped hp (hslot _ rfl) hreason hr
  | @unreported p cause hrefused =>
      obtain ⟨hok, -⟩ := hsmooth.notify_report
      cases hrefused.symm.trans hok
  | @takeUp p mode hwake =>
      -- The slot is filled in two stages only: after a load, and after a stop.
      have hdecided := Engine.decided_of_wakening hwake
      have hsame (p mode) : (b.engine.takeUp thread p mode).breakpoints = b.engine.breakpoints :=
        b.engine.breakpoints_takeUp thread p mode
      cases h with
      | loading _ hempty | installing _ hempty | stopped _ hempty | answering _ _ hempty =>
          cases hempty.symm.trans hdecided
      | installed hp hfilled ht hr =>
          cases hfilled.symm.trans hdecided
          refine hquiet rfl (.confirming hp (Plan.Reaches.of_same ?_ (hsame _ _)))
          rw [Plan.steps_atLoad b.engine ht]
          exact hr
      | answered hp hfilled hr =>
          cases hfilled.symm.trans hdecided
          refine hquiet rfl (.confirming hp (Plan.Reaches.of_same ?_ (hsame _ _)))
          rw [Mode.steps_atLine b.engine]
          exact hr
  | @closed p c hwake => cases hsmooth.isOpen.symm.trans (Engine.closed_of_wakening hwake)
  | confirm mode =>
      obtain ⟨hpipeline, -⟩ := Session.pipeline_notify b.session (.resumed thread mode)
      cases h with
      | confirming hp hr =>
          rw [← hpipeline] at hp
          exact hquiet rfl (.returned hp hr)
  | abandon | excuse => cases h

/-! ### Answers -/

namespace Stage

/-- The halts so far are the first ones of the reference. -/
theorem isPrefix (h : Stage plan thread total b answers halts points phase) :
    halts <+: plan.halts none total answers := by
  cases h with
  | ahead _ hr | entering _ hr | opening _ hr | reporting _ hr | loading _ _ _ hr | installed _ _ _ hr
  | answering _ _ _ _ hr | answered _ _ hr | confirming _ hr | returned _ hr =>
      exact hr.keeps.isPrefix
  | installing _ _ _ _ hk => exact hk.isPrefix
  | stopped _ _ hreason hr =>
      have hall := hr.keeps.halted hreason
      exact ⟨[], (List.append_nil _).trans hall.symm⟩

/-- **A call that waits for an answer is at a stop**, and everything before it has settled. -/
theorem of_stop {p : Pause} (h : Stage plan thread total b answers halts points (some (.waiting p)))
    (hslot : b.engine.slots.get? thread = some none) (hline : p.report.reason? ≠ some .scriptLoaded)
    (hhanding : ¬ b.session.Handing thread)
    (hunanswered : ∀ mode, .command (.resume thread mode) ∉ b.session.queue.events) :
    ∃ script number depth frames reason left seen,
      points = .line script number depth frames :: left ∧ p = .atLine thread depth frames reason ∧
        halts = seen ++ [⟨script.resource, number, depth, reason⟩] ∧ b.session.pipeline = [] ∧
        plan.reason? script number depth (b.engine.steps.get? thread) = some reason ∧
        plan.Reaches total answers seen b.engine (b.engine.steps.get? thread) points := by
  cases h with
  | loading | installing | installed => exact absurd rfl hline
  | answered _ hfilled => cases hslot.symm.trans hfilled
  | stopped hp _ hreason hr => exact ⟨_, _, _, _, _, _, _, rfl, rfl, rfl, hp, hreason, hr⟩
  | @answering _ script number depth frames reason left mode hone hfollowing =>
      have hmem : Command.resume thread mode ∈ b.session.pipeline := by
        rw [hone]
        exact List.mem_cons_self
      rw [Session.pipeline, hfollowing, List.append_nil] at hmem
      rcases List.mem_append.mp hmem with hforward | hqueued
      · exact absurd ⟨mode, hforward⟩ hhanding
      · exact absurd (mem_commandsOf.mp hqueued) (hunanswered mode)

/-- **With nothing on its way, a call that waits for an answer waits at a line.** -/
theorem reason_of_rest {p : Pause}
    (h : Stage plan thread total b answers halts points (some (.waiting p)))
    (hslot : b.engine.slots.get? thread = some none) (hp : b.session.pipeline = [])
    {frames : List Frame} {reason : Reason} (hreport : p.report = .suspended thread frames reason) :
    reason ≠ .scriptLoaded := by
  cases h with
  | loading | installing | installed => cases hreport
  | answered _ hfilled => cases hslot.symm.trans hfilled
  | answering hone => cases hp.symm.trans hone
  | stopped _ _ hreason =>
      cases hreport
      exact Plan.reason?_ne_scriptLoaded hreason

/-- **The answer to a stop is queued.** -/
theorem answer {p : Pause} (h : Stage plan thread total b answers halts points (some (.waiting p)))
    (hslot : b.engine.slots.get? thread = some none) (hline : p.report.reason? ≠ some .scriptLoaded)
    (hhanding : ¬ b.session.Handing thread)
    (hunanswered : ∀ mode, .command (.resume thread mode) ∉ b.session.queue.events)
    (hlane : lane thread b.session.queue.events = []) (mode : Mode) :
    Stage plan thread total
      { b with session :=
          b.session.withEvents (b.session.queue.events ++ [.command (.resume thread mode)]) }
      (answers ++ [mode]) halts points (some (.waiting p)) := by
  obtain ⟨script, number, depth, frames, reason, left, seen, rfl, rfl, rfl, hp, hreason, hr⟩ :=
    h.of_stop hslot hline hhanding hunanswered
  obtain ⟨hkeeps, known, next, ⟨-, -, hahead⟩, hinstalled⟩ := hr
  have hnil := hp
  simp only [Session.pipeline, List.append_eq_nil_iff] at hnil
  obtain ⟨⟨hforwards, hqueued⟩, hfollowing⟩ := hnil
  refine .answering ?_ hfollowing hslot ?_ ⟨hkeeps.answer hreason mode, known, next, hahead, hinstalled⟩
  · show b.session.forwards ++ commandsOf (b.session.queue.events ++ [.command (.resume thread mode)])
      ++ b.session.following = _
    rw [hforwards, hfollowing, commandsOf_append, hqueued]
    rfl
  · show lane thread (b.session.queue.events ++ [.command (.resume thread mode)]) = []
    rw [lane_append, hlane]
    rfl

end Stage

/-! ### What a plan asks of a session -/

namespace Plan.Serves

/-- No task is a matter of settings and breakpoints. -/
theorem perform (h : plan.Serves b) (hpeaceful : b.session.Peaceful) {task : Task}
    {session : Session} (hs : b.session.perform? = some (task, session)) :
    plan.Serves { session, engine := World.effectOnEngine b.engine task } := by
  obtain ⟨rest, hagenda, rfl⟩ := Session.perform?_cases hs
  have hmild : task.IsMild := hpeaceful.agenda task (by rw [hagenda]; exact List.mem_cons_self)
  refine ⟨Session.isLive_effect.mpr ⟨h.live.target, h.live.queue⟩, ?_, ?_, ?_⟩
  · show (Session.effect _ task).target.options = _
    rw [Session.target_effect]
    exact h.options
  · show (Session.effect _ task).breakpoints.Holds _
    rw [Session.breakpoints_effect]
    exact h.store
  · show (World.effectOnEngine b.engine task).isTracked = _
    rw [← h.tracked]
    cases task with
    | forward c =>
        have hends := Command.IsMild.ends_nothing hmild
        exact World.isTracked_forward b.engine hends
    | release | callback | command | followUp => rfl
    | releaseAll | lastCallback | closeQueue | closeGate | forwardClosed | announceClosed
    | finish => exact hmild.elim

/-- No event is, while nothing ends anything. -/
theorem take (h : plan.Serves b) (hpeaceful : b.session.Peaceful) {session : Session}
    (hs : b.session.take? = some session) : plan.Serves { b with session } := by
  obtain ⟨-, e, rest, hevents, rfl⟩ :=
    Session.take?_open hpeaceful.queue_open hpeaceful.uncancelled hs
  have hmild : e.IsMild := hpeaceful.events e (by rw [hevents]; exact List.mem_cons_self)
  have htarget : (b.session.targetAfter e).state ≠ .terminated ∧
      (b.session.targetAfter e).options = b.session.target.options := by
    cases e with
    | notification n =>
        exact ⟨Target.state_handleNotification h.live.target _ hmild,
          Target.options_handleNotification _ _ n⟩
    | command c =>
        refine ⟨Target.state_handleCommand h.live.target ?_, Target.options_handleCommand _ c⟩
        rintro rfl
        exact hmild
  refine ⟨⟨?_, ?_⟩, ?_, ?_, h.tracked⟩
  · show ((b.session.withEvents rest).handle e).target.state ≠ _
    rw [Session.target_handle, Session.targetAfter_withEvents]
    exact htarget.1
  · show ((b.session.withEvents rest).handle e).queue.cancelled = _
    rw [Session.queue_handle]
    exact h.live.queue
  · show ((b.session.withEvents rest).handle e).target.options = _
    rw [Session.target_handle, Session.targetAfter_withEvents, htarget.2]
    exact h.options
  · show ((b.session.withEvents rest).handle e).breakpoints.Holds _
    rw [Session.handle_eq]
    exact h.store

/-- No report is. -/
theorem mention (h : plan.Serves b) (n : Notification) : plan.Serves (b.mention n) := by
  obtain ⟨htarget, -, hbreakpoints, -⟩ := Session.notify_frame b.session n
  refine ⟨Session.isLive_notify.mpr h.live, ?_, ?_, h.tracked⟩
  · rw [Bridge.session_mention, htarget]
    exact h.options
  · rw [Bridge.session_mention, hbreakpoints]
    exact h.store

theorem call (h : plan.Serves b) {phase phase' : Option Phase}
    (hcall : CallStep b thread phase b' phase') : plan.Serves b' := by
  have hengine (e : Engine) (he : e.isTracked = b.engine.isTracked) :
      plan.Serves { b with engine := e } :=
    ⟨h.live, h.options, h.store, he.trans h.tracked⟩
  cases hcall with
  | announce | report | confirm | excuse => exact h.mention _
  | silent | enter | refuse | pass | pause | leave => exact h
  | openSlot p => exact hengine _ rfl
  | @unreported p cause hrefused =>
      obtain ⟨hl, hoptions, hstore, htracked⟩ := h.mention p.report
      exact ⟨hl, hoptions, hstore, htracked⟩
  | takeUp => exact hengine _ (Engine.isTracked_takeUp _ _ _ _)
  | closed => exact hengine _ rfl
  | abandon milliseconds => exact ⟨⟨h.live.target, h.live.queue⟩, h.options, h.store, h.tracked⟩

end Plan.Serves

/-! ### Steps of the job -/

namespace Stage

/-- A call begins, or the run is over. -/
theorem begin {point : Checkpoint} (h : Stage plan thread total b answers halts (point :: left) none) :
    Stage plan thread total (Job.begin b point).1 answers halts (point :: left)
        (some (Job.begin b point).2) ∨
      point = .ended ∧ ∃ pending, plan.Keeps total answers halts pending left := by
  cases h with
  | ahead hp hr =>
      cases point with
      | started =>
          obtain ⟨hpipeline, -⟩ := Session.pipeline_notify b.session .engineStarted
          obtain ⟨hkeeps, seen, next, hahead, hinstalled⟩ := hr
          exact .inl (.returned (hpipeline.trans hp)
            ⟨hkeeps.skip (.inl rfl), seen, next, hahead, hinstalled⟩)
      | load | line => exact .inl (.entering hp hr)
      | ended => exact .inr ⟨rfl, _, hr.keeps.skip (.inr rfl)⟩

theorem leave {point : Checkpoint} {reply : Reply}
    (h : Stage plan thread total b answers halts (point :: left) (some (.returned reply))) :
    Stage plan thread total b answers halts left none := by
  cases h with
  | returned hp hr => exact .ahead hp hr

/-- At the end there is nothing more to come. -/
theorem finish {reply : Reply}
    (h : Stage plan thread total b answers halts [.ended] (some (.returned reply))) :
    ∃ pending, plan.Keeps total answers halts pending [] := by
  cases h with
  | returned hp hr => exact ⟨_, hr.keeps⟩

/-- **A step of the job**: the run goes on, or it is over. -/
theorem job {j j' : Job} (hsteady : j.run.Steady) (hserves : plan.Serves b)
    (hsmooth : Smooth j.thread b j.run.checkpoints j.phase)
    (hslot : ∀ p, j.phase = some (.reporting p) → b.engine.slots.get? j.thread = some none)
    (h : Stage plan j.thread total b answers halts j.run.checkpoints j.phase)
    (hstep : j.advance? b = some (b', j')) :
    Stage plan j.thread total b' answers (halts ++ Phase.halts j.phase j'.phase)
        j'.run.checkpoints j'.phase ∨
      j'.Ending ∧ ∃ pending,
        plan.Keeps total answers (halts ++ Phase.halts j.phase j'.phase) pending [] := by
  obtain ⟨point, heap, resume, hrun, ⟨hphase, rfl, rfl⟩ | ⟨phase, phase', hphase, hadvance, rfl⟩ |
    ⟨reply, hphase, rfl, rfl⟩⟩ := Job.advance?_cases hstep
  · rw [hphase, hrun] at h hsmooth
    have hnone : Phase.halts j.phase (some (Job.begin b point).2) = [] := by
      rw [hphase]
      rfl
    show Stage _ _ _ _ _ (halts ++ Phase.halts j.phase (some (Job.begin b point).2)) j.run.checkpoints
      (some (Job.begin b point).2) ∨ _
    rw [hnone, List.append_nil, hrun]
    refine h.begin.imp_right ?_
    intro ⟨hpoint, hkeeps⟩
    subst hpoint
    have hend := hsmooth.eq_nil_of_ended
    rw [hend] at hkeeps
    refine ⟨⟨?_, _, rfl⟩, ?_⟩
    · show j.run.checkpoints = _
      rw [hrun, Run.checkpoints, hend]
    · show ∃ pending, plan.Keeps total answers
        (halts ++ Phase.halts j.phase (some (Job.begin b .ended).2)) pending []
      rw [hnone, List.append_nil]
      exact hkeeps
  · rw [hphase, hrun] at h hsmooth
    rw [hphase] at hslot ⊢
    left
    show Stage _ _ _ _ _ (halts ++ Phase.halts (some phase) (some phase')) j.run.checkpoints _
    rw [hrun]
    refine h.call hserves hsmooth ?_ (callStep_of_phase hadvance)
    intro p hp
    exact hslot p (congrArg some hp)
  · rw [hphase, hrun] at h hsmooth
    obtain ⟨hreply, -⟩ := hsmooth.leave
    rw [hrun] at hsteady
    have hsame : resume reply = resume (.ok ()) := hsteady.1 reply hreply
    have hnone : Phase.halts j.phase none = [] := by
      rw [hphase]
      rfl
    dsimp only
    rw [hnone, List.append_nil, hsame]
    exact .inl h.leave

end Stage

end

end Pausepoint
