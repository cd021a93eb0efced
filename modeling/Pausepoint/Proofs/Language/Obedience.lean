import Pausepoint.Language.Interpreter

/-!
# Pausepoint.Proofs.Language.Obedience

A refusal ends a script on the spot.

`Steady` says that whatever lets a script go on lets it go on in the same way. `Run.Yields` is the other
half: any other reply ends it, and from then on it neither computes nor asks anything. `yields_runRoot` says so
of every script, by recursion on the room on the stack and the statements of a block.
-/

namespace Pausepoint

/-- A refusal that a script does not get over: any but a timeout. -/
def Refusal.IsFinal (cause : Refusal) : Prop :=
  ∀ milliseconds, cause ≠ .resumeTimeout milliseconds

namespace Language

namespace Run

/-- Wherever it is refused to go on, a run is over, with its scopes as they were. -/
def Yields : Run Outcome → Prop
  | .done _ => True
  | .ask _ heap resume =>
      (∀ cause : Refusal, cause.IsFinal →
        ∃ i, resume (.error cause) = .done (i, .error (.refused cause)) ∧ i.heap = heap) ∧
      ∀ reply, (resume reply).Yields

theorem yields_andThen {r : Run Outcome} {next : Interpreter → Run Outcome} (h : r.Yields)
    (hnext : ∀ i, (next i).Yields) : (r.andThen next).Yields := by
  induction r with
  | done outcome =>
      obtain ⟨i, result⟩ := outcome
      cases result with
      | ok => exact hnext i
      | error fault => trivial
  | ask point heap resume ih =>
      refine ⟨fun cause hcause => ?_, fun reply => ih reply (h.2 reply)⟩
      obtain ⟨i, hi, hheap⟩ := h.1 cause hcause
      refine ⟨i, ?_, hheap⟩
      show (resume (.error cause)).andThen next = _
      rw [hi]
      rfl

/-- What is tidied up afterwards is no matter of scopes. -/
theorem yields_tidied {r : Run Outcome} (h : r.Yields) (tidy : Interpreter → Interpreter)
    (htidy : ∀ i, (tidy i).heap = i.heap) :
    (r.bind fun (i, result) => .done (tidy i, result)).Yields := by
  induction r with
  | done outcome => trivial
  | ask point heap resume ih =>
      refine ⟨fun cause hcause => ?_, fun reply => ih reply (h.2 reply)⟩
      obtain ⟨i, hi, hheap⟩ := h.1 cause hcause
      refine ⟨tidy i, ?_, (htidy i).trans hheap⟩
      show (resume (.error cause)).bind _ = _
      rw [hi]
      rfl

end Run

/-- A refusal is heeded, unless it is a timeout. -/
theorem heed_of_isFinal (i : Interpreter) {cause : Refusal} (h : cause.IsFinal) :
    heed i (.error cause) = .done (i, .error (.refused cause)) := by
  cases cause with
  | resumeTimeout milliseconds => exact absurd rfl (h milliseconds)
  | unknownThread | invalidTransition | pauseInFlight | notStarted | terminated | closed | spawn => rfl

theorem yields_heed (i : Interpreter) (reply : Reply) : (heed i reply).Yields := by
  unfold heed
  split <;> trivial

theorem yields_ask (point : Checkpoint) (i : Interpreter) : (Run.ask point i.heap (heed i)).Yields :=
  ⟨fun _ hcause => ⟨i, heed_of_isFinal i hcause, rfl⟩, yields_heed i⟩

theorem yields_checkpoint (line : Nat) (i : Interpreter) : (checkpoint line i).Yields := by
  unfold checkpoint
  cases i.stack with
  | nil => trivial
  | cons top below => exact yields_ask _ _

theorem yields_announce (e : Entry) (i : Interpreter) : (announce e i).Yields := by
  unfold announce
  split
  · exact yields_ask _ i
  · trivial

/-! ### Blocks

What a line enters yields by assumption, until the recursion on the room is closed. -/

section

variable {enter : Entry → Interpreter → Run Outcome}

theorem yields_loadScript (henter : ∀ e i, (enter e i).Yields) (script : Script) (kind : FrameKind)
    (i : Interpreter) : (loadScript enter script kind i).Yields := by
  unfold loadScript
  split
  · trivial
  · exact henter _ _

theorem yields_runAction (henter : ∀ e i, (enter e i).Yields) (line : Nat) (i : Interpreter)
    (action : Action) : (runAction enter line i action).Yields := by
  cases action with
  | assign name e | print e =>
      simp only [runAction]
      split <;> trivial
  | call name =>
      simp only [runAction]
      split
      · trivial
      · exact henter _ _
  | includeResource resource =>
      simp only [runAction]
      split
      · trivial
      · exact yields_loadScript henter _ _ _
  | eval code => exact yields_loadScript henter _ _ _

theorem yields_runStatement (henter : ∀ e i, (enter e i).Yields) (i : Interpreter) (s : Statement) :
    (runStatement enter i s).Yields := by
  cases s with
  | simple line action => exact yields_runAction henter line i action
  | function line name body =>
      simp only [runStatement]
      split <;> trivial

theorem yields_runBlock (henter : ∀ e i, (enter e i).Yields) (body : List Statement) (i : Interpreter) :
    (runBlock enter body i).Yields := by
  induction body generalizing i with
  | nil => trivial
  | cons s rest ih =>
      unfold runBlock
      refine Run.yields_andThen (yields_checkpoint s.line i) fun i => ?_
      exact Run.yields_andThen (yields_runStatement henter i s) ih

end

theorem yields_enter (room : Nat) (e : Entry) (i : Interpreter) : (enter room e i).Yields := by
  induction room generalizing e i with
  | zero => trivial
  | succ room ih =>
      unfold enter
      refine Run.yields_andThen (yields_announce e i) fun i => ?_
      exact Run.yields_tidied (yields_runBlock ih e.body (i.push e)) Interpreter.pop fun _ => rfl

/-- **Every script that is refused to go on is over.** -/
theorem yields_runRoot (i : Interpreter) (script : Script) : (i.runRoot script).Yields :=
  Run.yields_tidied (yields_loadScript (yields_enter i.room) script .call i)
    (fun i => { i with stack := [] }) fun _ => rfl

end Language

end Pausepoint
