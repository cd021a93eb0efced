import Pausepoint.Engine.Basic
import Pausepoint.Language.Run

/-!
# Pausepoint.Proofs.World.Reference

Where a script is held, by its checkpoints alone.

`Plan.halts` goes once through the checkpoints that a run passes without a debugger, and keeps a single
piece of state, the step that is pending. There is no session in it, no queue and no engine. What
happens at a line that holds the script is up to a list of answers; where they end, it ends.

`Plan.Keeps` says how far it has come after some answers, and survives every checkpoint.
-/

namespace Pausepoint

open Pausepoint.Language

/-- A line at which a script is held. -/
structure Halt where
  /-- The resource of the script. -/
  resource : Option String
  line : Nat
  /-- How many frames are on the stack. -/
  depth : Nat
  reason : Reason
  deriving Repr, DecidableEq

/-- The step that begins with an answer, if it asks for one. -/
def Mode.begins (mode : Mode) (depth : Nat) : Option StepRequest :=
  if mode.isStep then some ⟨mode, depth⟩ else none

/-- All that decides where a script is held, besides the answers. -/
structure Plan where
  settings : DebuggerSettings
  /-- The breakpoints that are set, in any order. -/
  breakpoints : List Breakpoint
  root : ScriptId

namespace Plan

variable (plan : Plan)

/-- Are the lines of a script looked at? -/
def tracks (script : Snapshot) : Bool :=
  !script.isDynamic || plan.settings.showDynamicCode

/-- Is a script to be held on its first line? -/
def holdsFirst (script : Snapshot) : Bool :=
  plan.settings.suspendOnScriptLoad || (script.id == plan.root && plan.settings.suspendOnStartup)

/-- How a thread goes on once a script was loaded. -/
def loadMode (script : Snapshot) : Mode :=
  if plan.holdsFirst script then .stepInto else .resume

/-- The pending step after a script was loaded. -/
def afterLoad (script : Snapshot) (depth : Nat) (pending : Option StepRequest) : Option StepRequest :=
  if plan.tracks script && plan.holdsFirst script then some ⟨.stepInto, depth⟩ else pending

/-- Does an enabled breakpoint match a line of a script? -/
def breaks (script : Snapshot) (line : Nat) : Bool :=
  plan.breakpoints.any fun b => script.resource == some b.resource && b.hits line

/-- Why a script is held at a line, if it is; a breakpoint comes before a step. -/
def reason? (script : Snapshot) (line depth : Nat) (pending : Option StepRequest) : Option Reason :=
  if plan.tracks script then
    if plan.breaks script line then some .breakpoint
    else if pending.any fun step => step.reached depth then some .stepEnd
    else none
  else none

/-- **The reference**: the lines among some checkpoints that hold the script, for a pending step and
the answers to come. -/
def halts (pending : Option StepRequest) : List Checkpoint → List Mode → List Halt
  | [], _ => []
  | .started :: rest, answers | .ended :: rest, answers => halts pending rest answers
  | .load script depth :: rest, answers => halts (plan.afterLoad script depth pending) rest answers
  | .line script number depth _ :: rest, answers =>
      match plan.reason? script number depth pending with
      | none => halts pending rest answers
      | some reason =>
          ⟨script.resource, number, depth, reason⟩ ::
            match answers with
            | [] => []
            | mode :: later => halts (mode.begins depth) rest later

section

variable {plan} {script : Snapshot} {number depth : Nat} {frames : List Frame}
  {pending : Option StepRequest} {reason : Reason}

/-- Lines are not held for being loaded. -/
theorem reason?_ne_scriptLoaded (h : plan.reason? script number depth pending = some reason) :
    reason ≠ .scriptLoaded := by
  rintro rfl
  unfold reason? at h
  split at h
  · split at h
    · cases h
    · split at h <;> cases h
  · cases h

theorem halts_pass (h : plan.reason? script number depth pending = none) (rest : List Checkpoint)
    (answers : List Mode) :
    plan.halts pending (.line script number depth frames :: rest) answers =
      plan.halts pending rest answers := by
  simp only [halts, h]

theorem halts_halt (h : plan.reason? script number depth pending = some reason)
    (rest : List Checkpoint) :
    plan.halts pending (.line script number depth frames :: rest) [] =
      [⟨script.resource, number, depth, reason⟩] := by
  simp only [halts, h]

theorem halts_answer (h : plan.reason? script number depth pending = some reason)
    (rest : List Checkpoint) (mode : Mode) (later : List Mode) :
    plan.halts pending (.line script number depth frames :: rest) (mode :: later) =
      ⟨script.resource, number, depth, reason⟩ :: plan.halts (mode.begins depth) rest later := by
  simp only [halts, h]

end

/-! ### How far the reference has come -/

/-- After some answers the reference has seen these halts, which were answered, and goes on from here: it comes
from one checkpoint to the next, and past a line that holds the script by an answer. -/
inductive Keeps (points : List Checkpoint) :
    List Mode → List Halt → Option StepRequest → List Checkpoint → Prop
  | start : Keeps points [] [] none points
  | skip {answers : List Mode} {seen : List Halt} {pending : Option StepRequest} {point : Checkpoint}
      {left : List Checkpoint} (h : Keeps points answers seen pending (point :: left))
      (hpoint : point = .started ∨ point = .ended) : Keeps points answers seen pending left
  | load {answers : List Mode} {seen : List Halt} {pending : Option StepRequest} {script : Snapshot}
      {depth : Nat} {left : List Checkpoint}
      (h : Keeps points answers seen pending (.load script depth :: left)) :
      Keeps points answers seen (plan.afterLoad script depth pending) left
  /-- A line that does not hold the script. -/
  | pass {answers : List Mode} {seen : List Halt} {pending : Option StepRequest} {script : Snapshot}
      {number depth : Nat} {frames : List Frame} {left : List Checkpoint}
      (h : Keeps points answers seen pending (.line script number depth frames :: left))
      (hnone : plan.reason? script number depth pending = none) : Keeps points answers seen pending left
  /-- A line that does, and its answer. -/
  | answer {answers : List Mode} {seen : List Halt} {pending : Option StepRequest} {script : Snapshot}
      {number depth : Nat} {frames : List Frame} {reason : Reason} {left : List Checkpoint}
      (h : Keeps points answers seen pending (.line script number depth frames :: left))
      (hsome : plan.reason? script number depth pending = some reason) (mode : Mode) :
      Keeps points (answers ++ [mode]) (seen ++ [⟨script.resource, number, depth, reason⟩])
        (mode.begins depth) left

namespace Keeps

variable {plan} {points left : List Checkpoint} {answers : List Mode} {seen : List Halt}
  {pending : Option StepRequest} {script : Snapshot} {number depth : Nat} {frames : List Frame}
  {reason : Reason}

/-- **Where it goes on** does not depend on how it came there. -/
theorem goes (h : plan.Keeps points answers seen pending left) (later : List Mode) :
    plan.halts none points (answers ++ later) = seen ++ plan.halts pending left later := by
  induction h generalizing later with
  | start => rfl
  | skip _ hpoint ih =>
      rw [ih later]
      rcases hpoint with rfl | rfl <;> rfl
  | load _ ih =>
      rw [ih later]
      rfl
  | pass _ hnone ih => rw [ih later, halts_pass hnone]
  | answer _ hsome mode ih =>
      rw [List.append_assoc, List.singleton_append, ih (mode :: later), halts_answer hsome,
        List.append_assoc, List.singleton_append]

/-- At a line that holds the script nothing more is seen without an answer. -/
theorem halted (h : plan.Keeps points answers seen pending (.line script number depth frames :: left))
    (hsome : plan.reason? script number depth pending = some reason) :
    plan.halts none points answers = seen ++ [⟨script.resource, number, depth, reason⟩] := by
  have hnow := h.goes []
  rw [List.append_nil, halts_halt hsome] at hnow
  exact hnow

theorem isPrefix (h : plan.Keeps points answers seen pending left) :
    seen <+: plan.halts none points answers := by
  have hnow := h.goes []
  rw [List.append_nil] at hnow
  rw [hnow]
  exact List.prefix_append _ _

/-- Nothing more is seen at the end. -/
theorem finish (h : plan.Keeps points answers seen pending []) :
    plan.halts none points answers = seen := by
  have hnow := h.goes []
  rw [List.append_nil, halts, List.append_nil] at hnow
  exact hnow

end Keeps

end Plan

end Pausepoint
