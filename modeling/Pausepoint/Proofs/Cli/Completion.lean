import Mathlib.Logic.Relation
import Pausepoint.Cli.Run

/-!
# Pausepoint.Proofs.Cli.Completion

Whole runs from the command line, in whatever order everyone moves.

A run goes on until nobody can make another step, or its controller was refused something (`Watch.IsOver`).
`Arguments.Completes` says what it may leave behind if it is not divided (`Watch.Undivided`): the dispatcher makes
no step between the looks at a thread by which the controller decides whether there is a stop to be shown.

The schedule of `Arguments.run` is one of these (`completes_run`), since its controller moves only when everyone
else rests. For other schedules, and small worlds, `Watch.follow?` takes the steps of a given list.
-/

namespace Pausepoint

namespace Watch

variable {k : Controller} {x y : Watch} {party : Party}

/-- Nobody can make another step, or the controller was refused something, which ends a run at once. -/
def IsOver (k : Controller) (x : Watch) : Prop :=
  x.isBroken = true ∨ ∀ party y, ¬ Step k x party y

/-- **A step of a run that is not divided.** -/
def Undivided (k : Controller) (x y : Watch) : Prop :=
  ∃ party, Step k x party y ∧ (party = .dispatcher → x.attention.isLooking = false)

/-- The step of someone. -/
def step? (k : Controller) (x : Watch) : Party → Option Watch
  | .dispatcher => x.dispatch?
  | .script => x.work?
  | .controller => x.attend? k

end Watch

/-! ### What a run leaves behind -/

namespace Cli

/-- **What a run of the arguments may leave behind** if it is not divided. -/
inductive Arguments.Completes (a : Arguments) (read : Reader) (environment : Option String) : RunResult → Prop
  /-- It does not come so far as to run the script. -/
  | refused {r : RunResult} (h : a.prepare read environment = .error r) : a.Completes read environment r
  | finished {warning : Option (String × LoadFault)} {x y : Watch}
      (h : a.prepare read environment = .ok (warning, x))
      (hreach : Relation.ReflTransGen (Watch.Undivided a.controller) x y) (hover : y.IsOver a.controller) :
      a.Completes read environment (leftBy warning y)

end Cli

end Pausepoint
