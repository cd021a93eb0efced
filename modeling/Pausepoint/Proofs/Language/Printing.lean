import Pausepoint.Proofs.Language.Obedience

/-!
# Pausepoint.Proofs.Language.Printing

What a script has printed when it is refused to go on.

Whoever runs a script to its end sees what it had printed at any checkpoint, and perhaps more after that.
`Run.Prints` says so of a run, together with what `Run.Yields` says of refusals: one that comes at a
checkpoint ends the run with just that output. `prints_runRoot` says so of every script, by recursion on
the room on the stack and the statements of a block.

`run_cutFrom` is the main result: whatever a debugger replies, a script does what it does without one, or
it is refused to go on and does the beginning of that.
-/

namespace Pausepoint.Language

namespace Run

/-- From some output on, a run only prints more, and a refusal at a checkpoint ends it with what is printed
by then, unless it is a timeout, which is as good as consent. -/
def Prints (printed : List String) : Run Outcome → Prop
  | .done (i, _) => printed <+: i.output.toList
  | .ask _ _ resume =>
      ∃ now, printed <+: now ∧
        (∀ milliseconds, resume (.error (.resumeTimeout milliseconds)) = resume (.ok ())) ∧
        (∀ cause : Refusal, cause.IsFinal →
          ∃ i, resume (.error cause) = .done (i, .error (.refused cause)) ∧ i.output.toList = now) ∧
        (resume (.ok ())).Prints now

theorem Prints.mono {printed before : List String} {r : Run Outcome} (h : r.Prints printed)
    (hbefore : before <+: printed) : r.Prints before := by
  cases r with
  | done outcome => exact hbefore.trans h
  | ask point heap resume =>
      obtain ⟨now, hnow, hrest⟩ := h
      exact ⟨now, hbefore.trans hnow, hrest⟩

/-- What was printed is part of what is printed in the end. -/
theorem Prints.undisturbed {printed : List String} {r : Run Outcome} (h : r.Prints printed) :
    printed <+: r.undisturbed.1.output.toList := by
  induction r generalizing printed with
  | done outcome => exact h
  | ask point heap resume ih =>
      obtain ⟨now, hnow, -, -, hrest⟩ := h
      exact hnow.trans (ih (.ok ()) hrest)

theorem prints_andThen {printed : List String} {r : Run Outcome} {next : Interpreter → Run Outcome}
    (h : r.Prints printed) (hnext : ∀ i, (next i).Prints i.output.toList) :
    (r.andThen next).Prints printed := by
  induction r generalizing printed with
  | done outcome =>
      obtain ⟨i, result⟩ := outcome
      cases result with
      | ok => exact (hnext i).mono h
      | error fault => exact h
  | ask point heap resume ih =>
      obtain ⟨now, hnow, hlate, hrefused, hrest⟩ := h
      refine ⟨now, hnow, fun milliseconds => ?_, fun cause hcause => ?_, ih (.ok ()) hrest⟩
      · exact congrArg (Run.andThen · next) (hlate milliseconds)
      · obtain ⟨i, hi, houtput⟩ := hrefused cause hcause
        refine ⟨i, ?_, houtput⟩
        show (resume (.error cause)).andThen next = _
        rw [hi]
        rfl

/-- What is tidied up afterwards is no matter of output. -/
theorem prints_tidied {printed : List String} {r : Run Outcome} (h : r.Prints printed)
    (tidy : Interpreter → Interpreter) (htidy : ∀ i, (tidy i).output = i.output) :
    (r.bind fun (i, result) => .done (tidy i, result)).Prints printed := by
  induction r generalizing printed with
  | done outcome =>
      show printed <+: (tidy outcome.1).output.toList
      rw [htidy]
      exact h
  | ask point heap resume ih =>
      obtain ⟨now, hnow, hlate, hrefused, hrest⟩ := h
      refine ⟨now, hnow, fun milliseconds => ?_, fun cause hcause => ?_, ih (.ok ()) hrest⟩
      · exact congrArg (Run.bind · _) (hlate milliseconds)
      · obtain ⟨i, hi, houtput⟩ := hrefused cause hcause
        refine ⟨tidy i, ?_, (congrArg Array.toList (htidy i)).trans houtput⟩
        show (resume (.error cause)).bind _ = _
        rw [hi]
        rfl

end Run

theorem prints_succeed (i : Interpreter) : (succeed i).Prints i.output.toList :=
  List.prefix_refl _

theorem prints_fail (i : Interpreter) (fault : ScriptFault) : (fail i fault).Prints i.output.toList :=
  List.prefix_refl _

theorem prints_ask (point : Checkpoint) (i : Interpreter) :
    (Run.ask point i.heap (heed i)).Prints i.output.toList :=
  ⟨_, List.prefix_refl _, fun _ => rfl, fun _ hcause => ⟨i, heed_of_isFinal i hcause, rfl⟩,
    prints_succeed i⟩

theorem prints_checkpoint (line : Nat) (i : Interpreter) : (checkpoint line i).Prints i.output.toList := by
  unfold checkpoint
  cases i.stack with
  | nil => exact prints_succeed i
  | cons top below => exact prints_ask _ { i with stack := { top with line } :: below }

theorem prints_announce (e : Entry) (i : Interpreter) : (announce e i).Prints i.output.toList := by
  unfold announce
  split
  · exact prints_ask _ i
  · exact prints_succeed i

/-! ### Blocks

What a line enters prints by assumption, until the recursion on the room is closed. -/

section

variable {enter : Entry → Interpreter → Run Outcome}

theorem prints_loadScript (henter : ∀ e i, (enter e i).Prints i.output.toList) (script : Script)
    (kind : FrameKind) (i : Interpreter) : (loadScript enter script kind i).Prints i.output.toList := by
  unfold loadScript
  split
  · exact prints_fail _ _
  · exact henter _ _

/-- Only one kind of line prints, and it adds to what was printed. -/
theorem prints_runAction (henter : ∀ e i, (enter e i).Prints i.output.toList) (line : Nat)
    (i : Interpreter) (action : Action) : (runAction enter line i action).Prints i.output.toList := by
  cases action with
  | assign name e =>
      simp only [runAction]
      split
      · exact prints_fail _ _
      · exact prints_succeed _
  | print e =>
      simp only [runAction]
      split
      · exact prints_fail _ _
      · next v _ =>
          show i.output.toList <+: (i.output.push v.display).toList
          rw [Array.toList_push]
          exact List.prefix_append _ _
  | call name =>
      simp only [runAction]
      split
      · exact prints_fail _ _
      · exact henter _ _
  | includeResource resource =>
      simp only [runAction]
      split
      · exact prints_fail _ _
      · exact prints_loadScript henter _ _ { i with nextScript := i.nextScript + 1 }
  | eval code => exact prints_loadScript henter _ _ { i with nextScript := i.nextScript + 1 }

theorem prints_runStatement (henter : ∀ e i, (enter e i).Prints i.output.toList) (i : Interpreter)
    (s : Statement) : (runStatement enter i s).Prints i.output.toList := by
  cases s with
  | simple line action => exact prints_runAction henter line i action
  | function line name body =>
      simp only [runStatement]
      split
      · exact prints_fail _ _
      · exact prints_succeed _

theorem prints_runBlock (henter : ∀ e i, (enter e i).Prints i.output.toList) (body : List Statement)
    (i : Interpreter) : (runBlock enter body i).Prints i.output.toList := by
  induction body generalizing i with
  | nil => exact prints_succeed i
  | cons s rest ih =>
      unfold runBlock
      refine Run.prints_andThen (prints_checkpoint s.line i) fun i => ?_
      exact Run.prints_andThen (prints_runStatement henter i s) ih

end

/-- Who enters or leaves a block prints nothing. -/
theorem Interpreter.output_push (i : Interpreter) (e : Entry) : (i.push e).output = i.output := by
  unfold push
  dsimp only
  split <;> rfl

theorem prints_enter (room : Nat) (e : Entry) (i : Interpreter) :
    (enter room e i).Prints i.output.toList := by
  induction room generalizing e i with
  | zero => exact prints_fail _ _
  | succ room ih =>
      unfold enter
      refine Run.prints_andThen (prints_announce e i) fun i => ?_
      have hbody := prints_runBlock ih e.body (i.push e)
      rw [i.output_push e] at hbody
      exact Run.prints_tidied hbody Interpreter.pop fun _ => rfl

/-- **A script only adds to what it has printed**, and a refusal ends it with what it has printed. -/
theorem prints_runRoot (i : Interpreter) (script : Script) : (i.runRoot script).Prints i.output.toList :=
  Run.prints_tidied (prints_loadScript (prints_enter i.room) script .call i)
    (fun i => { i with stack := [] }) fun _ => rfl

/-! ### Whatever is replied -/

/-- Every result that a run may give, whatever is replied, has a property. -/
def Run.EndsIn {α : Type} (P : α → Prop) : Run α → Prop
  | .done a => P a
  | .ask _ _ resume => ∀ reply, (resume reply).EndsIn P

theorem Run.EndsIn.bind {α β : Type} {P : α → Prop} {Q : β → Prop} {r : Run α} {next : α → Run β}
    (h : r.EndsIn P) (hnext : ∀ a, P a → (next a).EndsIn Q) : (r.bind next).EndsIn Q := by
  induction r with
  | done a => exact hnext a h
  | ask point heap resume ih => exact fun reply => ih reply (h reply)

/-- An outcome is cut from a whole one: it is the same, or the script was refused to go on and has printed
the first lines. -/
def Outcome.CutFrom (whole cut : Outcome) : Prop :=
  cut = whole ∨ ∃ cause, cut.2 = .error (.refused cause) ∧ cut.1.output.toList <+: whole.1.output.toList

theorem Run.Prints.endsIn {printed : List String} {r : Run Outcome} (h : r.Prints printed) :
    r.EndsIn (Outcome.CutFrom r.undisturbed) := by
  induction r generalizing printed with
  | done outcome => exact .inl rfl
  | ask point heap resume ih =>
      obtain ⟨now, -, hlate, hrefused, hrest⟩ := h
      have hgoesOn := ih (.ok ()) hrest
      rintro (cause | ⟨⟩)
      · -- A timeout is as good as consent, and any other refusal ends the run with what is printed by now.
        by_cases htimeout : ∃ milliseconds, cause = .resumeTimeout milliseconds
        · obtain ⟨milliseconds, rfl⟩ := htimeout
          rw [hlate]
          exact hgoesOn
        · obtain ⟨i, hi, houtput⟩ := hrefused cause fun milliseconds he => htimeout ⟨milliseconds, he⟩
          rw [hi]
          exact .inr ⟨cause, rfl, houtput ▸ hrest.undisturbed⟩
      · exact hgoesOn

/-- **A debugger adds nothing to a script.** Whatever is replied at its checkpoints, and wherever it is
refused to go on, its outcome is cut from the one without a debugger. -/
theorem run_cutFrom (i : Interpreter) (script : Script) :
    (i.run script).EndsIn (Outcome.CutFrom (i.run script).undisturbed) := by
  have hroot := prints_runRoot i script
  have hwhole : (i.run script).undisturbed = (i.runRoot script).undisturbed :=
    Run.undisturbed_bind (i.runRoot script) _
  rw [hwhole]
  rintro (cause | ⟨⟩)
  · exact .inr ⟨cause, rfl, hroot.undisturbed⟩
  · exact hroot.endsIn.bind fun outcome hcut _ => hcut

end Pausepoint.Language
