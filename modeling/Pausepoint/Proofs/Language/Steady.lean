import Pausepoint.Language.Interpreter

/-!
# Pausepoint.Proofs.Language.Steady

Runs that replies do not divert.

A script reads only one thing in the reply to a checkpoint: whether it may go on. `Run.Steady` says
so of a run: every reply that lets it go on lets it go on in the same way. `steady_run` is the main
result, for every script and every interpreter, by recursion on the room on the stack and the
statements of a block.
-/

namespace Pausepoint.Language

/-- Does a reply let a script go on? A timeout does where a script may wait, and the end of the engine
is reported in any case. -/
def Checkpoint.Harmless : Checkpoint → Reply → Prop
  | .started, reply => reply = .ok ()
  | .load .., reply | .line .., reply =>
      reply = .ok () ∨ ∃ milliseconds, reply = .error (.resumeTimeout milliseconds)
  | .ended, _ => True

namespace Run

variable {α β : Type}

/-- Whatever lets a run go on lets it go on as consent does. -/
def Steady : Run α → Prop
  | .done _ => True
  | .ask point _ resume =>
      (∀ reply, point.Harmless reply → resume reply = resume (.ok ())) ∧ (resume (.ok ())).Steady

theorem steady_bind {r : Run α} {next : α → Run β} (h : r.Steady) (hnext : ∀ a, (next a).Steady) :
    (r.bind next).Steady := by
  induction r with
  | done a => exact hnext a
  | ask point heap resume ih =>
      obtain ⟨hsame, hrest⟩ := h
      refine ⟨fun reply hreply => ?_, ih (.ok ()) hrest⟩
      show (resume reply).bind next = (resume (.ok ())).bind next
      rw [hsame reply hreply]

theorem steady_andThen {r : Run Outcome} {next : Interpreter → Run Outcome} (h : r.Steady)
    (hnext : ∀ i, (next i).Steady) : (r.andThen next).Steady := by
  refine steady_bind h fun outcome => ?_
  obtain ⟨i, result⟩ := outcome
  cases result with
  | ok => exact hnext i
  | error fault => trivial

end Run

theorem steady_succeed (i : Interpreter) : (succeed i).Steady := trivial

theorem steady_fail (i : Interpreter) (fault : ScriptFault) : (fail i fault).Steady := trivial

/-- A timeout is heeded like consent. -/
theorem heed_of_harmless (i : Interpreter) {reply : Reply}
    (h : reply = .ok () ∨ ∃ milliseconds, reply = .error (.resumeTimeout milliseconds)) :
    heed i reply = heed i (.ok ()) := by
  obtain rfl | ⟨milliseconds, rfl⟩ := h
  · rfl
  · rfl

theorem steady_checkpoint (line : Nat) (i : Interpreter) : (checkpoint line i).Steady := by
  unfold checkpoint
  cases i.stack with
  | nil => exact steady_succeed i
  | cons top below => exact ⟨fun reply h => heed_of_harmless _ h, trivial⟩

theorem steady_announce (e : Entry) (i : Interpreter) : (announce e i).Steady := by
  unfold announce
  split
  · exact ⟨fun reply h => heed_of_harmless i h, trivial⟩
  · exact steady_succeed i

/-! ### Blocks

What a line enters is steady by assumption, until the recursion on the room is closed. -/

section

variable {enter : Entry → Interpreter → Run Outcome}

theorem steady_loadScript (henter : ∀ e i, (enter e i).Steady) (script : Script) (kind : FrameKind)
    (i : Interpreter) : (loadScript enter script kind i).Steady := by
  unfold loadScript
  split
  · exact steady_fail _ _
  · exact henter _ _

theorem steady_runAction (henter : ∀ e i, (enter e i).Steady) (line : Nat) (i : Interpreter)
    (action : Action) : (runAction enter line i action).Steady := by
  cases action with
  | assign name e =>
      simp only [runAction]
      split
      · exact steady_fail _ _
      · exact steady_succeed _
  | print e =>
      simp only [runAction]
      split
      · exact steady_fail _ _
      · exact steady_succeed _
  | call name =>
      simp only [runAction]
      split
      · exact steady_fail _ _
      · exact henter _ _
  | includeResource resource =>
      simp only [runAction]
      split
      · exact steady_fail _ _
      · exact steady_loadScript henter _ _ _
  | eval code => exact steady_loadScript henter _ _ _

theorem steady_runStatement (henter : ∀ e i, (enter e i).Steady) (i : Interpreter)
    (s : Statement) : (runStatement enter i s).Steady := by
  cases s with
  | simple line action => exact steady_runAction henter line i action
  | function line name body =>
      simp only [runStatement]
      split
      · exact steady_fail _ _
      · exact steady_succeed _

theorem steady_runBlock (henter : ∀ e i, (enter e i).Steady) (body : List Statement)
    (i : Interpreter) : (runBlock enter body i).Steady := by
  induction body generalizing i with
  | nil => exact steady_succeed i
  | cons s rest ih =>
      unfold runBlock
      refine Run.steady_andThen (steady_checkpoint s.line i) fun i => ?_
      exact Run.steady_andThen (steady_runStatement henter i s) ih

end

theorem steady_enter (room : Nat) (e : Entry) (i : Interpreter) : (enter room e i).Steady := by
  induction room generalizing e i with
  | zero => exact steady_fail _ _
  | succ room ih =>
      unfold enter
      refine Run.steady_andThen (steady_announce e i) fun i => ?_
      exact Run.steady_bind (steady_runBlock ih e.body (i.push e)) fun _ => trivial

/-- **Every run of a script is steady.** -/
theorem steady_run (i : Interpreter) (script : Script) : (i.run script).Steady := by
  refine ⟨fun reply hreply => by rw [hreply], ?_⟩
  refine Run.steady_bind ?_ fun _ => ⟨fun _ _ => rfl, trivial⟩
  exact Run.steady_bind (steady_loadScript (steady_enter i.room) script .call i) fun _ => trivial

end Pausepoint.Language
