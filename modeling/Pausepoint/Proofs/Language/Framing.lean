import Pausepoint.Proofs.Language.Trail
import Pausepoint.Proofs.Language.Writing

/-!
# Pausepoint.Proofs.Language.Framing

What a run shows at a line.

The debugger is given a line, the depth of the stack, and the stack itself. `Checkpoint.Framed` says
that the three belong together: the innermost frame is at that line of that script, and there are as
many frames as the depth says. It also says that line 0, which names no line, never runs; this
comes from the parser (`numbered_parse`) and is kept up by the functions that an interpreter holds.
`framed_run` is the result for a whole run, and `ahead_run` puts it together with the trail of the run.
-/

namespace Pausepoint.Language

/-! ### Numbered lines -/

/-- A statement, with those inside it, stands on lines numbered from 1. -/
inductive Statement.Numbered : Statement → Prop
  | simple {line : Nat} (action : Action) (h : 0 < line) : Numbered (.simple line action)
  | function {line : Nat} (name : String) {body : List Statement} (h : 0 < line)
      (hbody : ∀ s ∈ body, s.Numbered) : Numbered (.function line name body)

theorem Statement.Numbered.pos {s : Statement} (h : s.Numbered) : 0 < s.line := by
  cases h with
  | simple action h => exact h
  | function name h hbody => exact h

theorem Statement.WrittenIn.numbered {source : String} {s : Statement} (h : s.WrittenIn source) :
    s.Numbered := by
  induction h with
  | simple h => exact .simple _ h.pos
  | function h hbody ih => exact .function _ h.pos ih

theorem numbered_parse {source : String} {body : List Statement} (h : parse source = .ok body) :
    ∀ s ∈ body, s.Numbered :=
  fun s hs => (written_parse h s hs).numbered

/-! ### Framed lines -/

/-- A line is given with the stack that runs it. -/
def Checkpoint.Framed : Checkpoint → Prop
  | .line script number depth frames =>
      0 < number ∧ frames.length = depth ∧
        ∃ frame below, frames = frame :: below ∧ frame.script = script ∧ frame.line = number
  | .started | .load .. | .ended => True

/-- The functions of an interpreter stand on numbered lines. -/
def Interpreter.Numbered (i : Interpreter) : Prop :=
  ∀ name f, i.functions.get? name = some f → ∀ s ∈ f.body, s.Numbered

/-- All lines that a run passes are framed, and so they are in what comes after it. -/
structure Run.Frames (r : Run Outcome) : Prop where
  framed : ∀ point ∈ r.checkpoints, point.Framed
  numbered : r.undisturbed.1.Numbered

theorem Run.frames_done {i : Interpreter} (h : i.Numbered) (result : Except ScriptFault Unit) :
    (Run.done (i, result)).Frames where
  framed := by
    intro point hpoint
    cases hpoint
  numbered := h

theorem Run.frames_andThen {r : Run Outcome} {next : Interpreter → Run Outcome} (h : r.Frames)
    (hnext : ∀ i, i.Numbered → (next i).Frames) : (r.andThen next).Frames := by
  obtain ⟨hframed, hnumbered⟩ := h
  unfold andThen
  suffices hlater : ∀ later : Run Outcome, later.Frames →
      (∀ point ∈ r.checkpoints ++ later.checkpoints, point.Framed) ∧ later.undisturbed.1.Numbered by
    refine ⟨?_, ?_⟩
    · rw [checkpoints_bind]
      generalize r.undisturbed = outcome at hnumbered hlater ⊢
      obtain ⟨i, result⟩ := outcome
      cases result with
      | ok => exact (hlater _ (hnext i hnumbered)).1
      | error fault => exact (hlater _ (Run.frames_done hnumbered _)).1
    · rw [undisturbed_bind]
      generalize r.undisturbed = outcome at hnumbered ⊢
      obtain ⟨i, result⟩ := outcome
      cases result with
      | ok => exact (hnext i hnumbered).numbered
      | error fault => exact hnumbered
  intro later hlater
  refine ⟨?_, hlater.numbered⟩
  intro point hpoint
  rcases List.mem_append.mp hpoint with hpoint | hpoint
  · exact hframed point hpoint
  · exact hlater.framed point hpoint

/-- The frames of a stack stand for its activations. -/
theorem frame_of_activation (heapNumber : Nat) (a : Activation) :
    (a.frame heapNumber).script = a.script ∧ (a.frame heapNumber).line = a.line := by
  unfold Activation.frame
  dsimp only
  split <;> exact ⟨rfl, rfl⟩

theorem frames_checkpoint {line : Nat} (hline : 0 < line) {i : Interpreter} (h : i.Numbered) :
    (checkpoint line i).Frames := by
  unfold checkpoint
  split
  · exact Run.frames_done h _
  · next top below hstack =>
      refine ⟨?_, h⟩
      intro point hpoint
      obtain rfl := List.mem_singleton.mp hpoint
      obtain ⟨hscript, hat⟩ := frame_of_activation i.heapNumber { top with line }
      refine ⟨hline, ?_, _, _, rfl, hscript, hat⟩
      rw [Interpreter.frames, List.length_map]

/-! ### Blocks -/

section

variable {enter : Entry → Interpreter → Run Outcome} {i : Interpreter}

theorem frames_loadScript
    (henter : ∀ e i, (∀ s ∈ e.body, s.Numbered) → i.Numbered → (enter e i).Frames)
    (h : i.Numbered) (script : Script) (kind : FrameKind) :
    (loadScript enter script kind i).Frames := by
  unfold loadScript
  split
  · exact Run.frames_done h _
  · next body hbody => exact henter _ i (numbered_parse hbody) h

theorem frames_runAction
    (henter : ∀ e i, (∀ s ∈ e.body, s.Numbered) → i.Numbered → (enter e i).Frames)
    (h : i.Numbered) (line : Nat) (action : Action) : (runAction enter line i action).Frames := by
  have hnext : i.takeScriptId.2.Numbered := h
  cases action with
  | assign name e =>
      simp only [runAction]
      split
      · exact Run.frames_done h _
      · refine Run.frames_done ?_ _
        exact h
  | print e =>
      simp only [runAction]
      split
      · exact Run.frames_done h _
      · refine Run.frames_done ?_ _
        exact h
  | call name =>
      simp only [runAction]
      split
      · exact Run.frames_done h _
      · next f hf => exact henter _ i (h name f hf) h
  | includeResource resource =>
      simp only [runAction]
      split
      · exact Run.frames_done h _
      · exact frames_loadScript henter hnext _ _
  | eval code => exact frames_loadScript henter hnext _ _

theorem frames_runStatement
    (henter : ∀ e i, (∀ s ∈ e.body, s.Numbered) → i.Numbered → (enter e i).Frames)
    (h : i.Numbered) {s : Statement} (hs : s.Numbered) : (runStatement enter i s).Frames := by
  cases hs with
  | @simple line action hline => exact frames_runAction henter h line action
  | @function line name body hline hbody =>
      simp only [runStatement]
      split
      · exact Run.frames_done h _
      · next top below hstack =>
          refine Run.frames_done ?_ _
          intro other f hf
          have hget : (i.functions.insert name ⟨top.script, body⟩).get? other = some f := hf
          rw [Table.get?_insert] at hget
          split at hget
          · obtain rfl := Option.some.inj hget
            exact hbody
          · exact h other f hget

theorem frames_runBlock
    (henter : ∀ e i, (∀ s ∈ e.body, s.Numbered) → i.Numbered → (enter e i).Frames)
    {body : List Statement} (hbody : ∀ s ∈ body, s.Numbered) (h : i.Numbered) :
    (runBlock enter body i).Frames := by
  induction body generalizing i with
  | nil => exact Run.frames_done h _
  | cons s rest ih =>
      obtain ⟨hs, hrest⟩ := List.forall_mem_cons.mp hbody
      unfold runBlock
      refine Run.frames_andThen (frames_checkpoint hs.pos h) ?_
      intro i hi
      refine Run.frames_andThen (frames_runStatement henter hi hs) ?_
      intro i hi
      exact ih hrest hi

end

theorem frames_announce (e : Entry) {i : Interpreter} (h : i.Numbered) : (announce e i).Frames := by
  unfold announce
  split
  · refine ⟨?_, h⟩
    intro point hpoint
    obtain rfl := List.mem_singleton.mp hpoint
    trivial
  · exact Run.frames_done h _

theorem frames_enter (room : Nat) (e : Entry) {i : Interpreter} (he : ∀ s ∈ e.body, s.Numbered)
    (h : i.Numbered) : (enter room e i).Frames := by
  induction room generalizing e i with
  | zero => exact Run.frames_done h _
  | succ room ih =>
      unfold enter
      refine Run.frames_andThen (frames_announce e h) ?_
      intro i hi
      have hpush : (i.push e).Numbered := by
        unfold Interpreter.push
        split
        · exact hi
        · exact hi
      obtain ⟨hframed, hnumbered⟩ := frames_runBlock (fun e i he hi => ih e he hi) he hpush
      refine ⟨?_, ?_⟩
      · rw [Run.checkpoints_bind, Run.checkpoints, List.append_nil]
        exact hframed
      · rw [Run.undisturbed_bind]
        exact hnumbered

/-- **Every line of a run** on a fresh interpreter is given with the stack that runs it. -/
theorem framed_run {i : Interpreter} (hf : i.IsFresh) (script : Script) :
    ∀ point ∈ (i.run script).checkpoints, point.Framed := by
  have hi : i.Numbered := by
    intro name f hget
    rw [hf.functions] at hget
    cases hget
  have hload : (loadScript (enter i.room) script .call i).Frames :=
    frames_loadScript (fun e i he h => frames_enter _ e he h) hi script .call
  have hpoints : (i.run script).checkpoints =
      .started :: ((loadScript (enter i.room) script .call i).checkpoints ++ [.ended]) := by
    show Checkpoint.started :: Run.checkpoints _ = _
    rw [Run.checkpoints_bind, Interpreter.runRoot, Run.checkpoints_bind, Run.checkpoints,
      List.append_nil]
    rfl
  rw [hpoints]
  intro point hpoint
  rcases List.mem_cons.mp hpoint with rfl | hpoint
  · trivial
  · rcases List.mem_append.mp hpoint with hpoint | hpoint
    · exact hload.framed point hpoint
    · obtain rfl := List.mem_singleton.mp hpoint
      trivial

/-! ### What is ahead of a run -/

/-- What checkpoints to come are like: scripts have new numbers, only the root script is loaded on the
empty stack, and lines are framed and belong to scripts that were loaded. -/
def Ahead (root : ScriptId) : List Snapshot → Nat → List Checkpoint → Prop
  | _, _, [] => True
  | seen, next, .started :: rest | seen, next, .ended :: rest => Ahead root seen next rest
  | seen, next, .load script depth :: rest =>
      next ≤ script.id.number ∧ (depth == 0) = (script.id == root) ∧
        Ahead root (script :: seen) (script.id.number + 1) rest
  | seen, next, .line script number depth frames :: rest =>
      script ∈ seen ∧ (Checkpoint.line script number depth frames).Framed ∧ Ahead root seen next rest

theorem ahead_of_announced {root : ScriptId} {seen : List Snapshot} {next bound : Nat}
    {points : List Checkpoint} (ha : Announced seen points) (hasc : Ascending next points bound)
    (hdeep : ∀ script depth, .load script depth ∈ points → depth ≠ 0)
    (hframed : ∀ point ∈ points, point.Framed) (hroot : root.number < next) :
    Ahead root seen next (points ++ [.ended]) := by
  induction points generalizing seen next with
  | nil => trivial
  | cons point rest ih =>
      have hdeep' (script depth) (hmem : .load script depth ∈ rest) : depth ≠ 0 :=
        hdeep script depth (List.mem_cons_of_mem _ hmem)
      have hframed' (p) (hp : p ∈ rest) : p.Framed := hframed p (List.mem_cons_of_mem _ hp)
      cases point with
      | load script depth =>
          have hdepth : depth ≠ 0 := hdeep script depth List.mem_cons_self
          have hne : script.id ≠ root := by
            rintro rfl
            have hle := hasc.1
            omega
          refine ⟨hasc.1, ?_, ih ha hasc.2 hdeep' hframed' ?_⟩
          · rw [beq_eq_false_iff_ne.mpr hdepth, beq_eq_false_iff_ne.mpr hne]
          · have hle := hasc.1
            omega
      | line script number depth frames =>
          exact ⟨ha.1, hframed _ List.mem_cons_self, ih ha.2 hasc hdeep' hframed' hroot⟩
      | started | ended => exact ha.elim

/-- **What is ahead of a run** on a fresh interpreter, from which the number of the root script was
taken before. -/
theorem ahead_run {i : Interpreter} (hf : i.IsFresh) {script : Script}
    (hid : script.id.number < i.nextScript) :
    Ahead script.id [] script.id.number (i.run script).checkpoints := by
  have hframed := framed_run hf script
  obtain ⟨points, hpoints, hcases⟩ := checkpoints_run hf script
  rw [hpoints] at hframed ⊢
  rcases hcases with rfl | ⟨rest, i', rfl, htrail⟩
  · trivial
  · refine ⟨Nat.le_refl _, (beq_self_eq_true script.id).symm, ?_⟩
    refine ahead_of_announced htrail.announced (ascending_mono hid htrail.ascending) htrail.deep ?_
      (Nat.lt_succ_self _)
    intro point hpoint
    refine hframed point ?_
    simp [hpoint]

end Pausepoint.Language
