import Pausepoint.Proofs.Language.Printing
import Pausepoint.Proofs.World.Course

/-!
# Pausepoint.Proofs.World.Curtailing

What a refusal leaves of the job of a script.

* `Run.Quits` — a refusal at the next reply makes the run report the end of its engine, with a given outcome;
* `Run.Curtails` — so it is at every call, and the outcome has the first lines of all that is printed;
* `curtails_ofScript` — so it is with every script;
* `Job.InFlight.advance`, `Job.Resigned.advance` — what is left to do for a run that was refused a pause.
-/

namespace Pausepoint.Language

/-- Who is refused at its next reply, for a given cause, has this outcome, and reports the end of the engine
before that. -/
def Run.Quits (cause : Refusal) (outcome : Outcome) : Run JobResult → Prop
  | .done _ => False
  | .ask _ _ resume =>
      ∃ heap, resume (.error cause) = .ask .ended heap fun _ => .done (.script outcome)

theorem Run.Quits.ne_done {cause : Refusal} {outcome : Outcome} {r : Run JobResult}
    (h : r.Quits cause outcome) (result : JobResult) : r ≠ .done result := by
  intro hdone
  rw [hdone] at h
  exact h

/-- Wherever a call of a run that was never refused is refused to go on, the run has printed the first lines
of all that it may print. -/
def Run.Curtails (full : List String) : Run JobResult → Prop
  | .done _ => True
  | .ask point heap resume =>
      (point.request?.isSome = true → ∀ cause : Refusal, cause.IsFinal → ∃ i : Interpreter,
        i.output.toList <+: full ∧
          (Run.ask point heap resume).Quits cause (i, .error (.refused cause))) ∧
      (resume (.ok ())).Curtails full

theorem curtails_of_prints {printed : List String} {r : Run Outcome} (h : r.Prints printed) :
    ((r.bind fun (i, result) => .ask .ended i.heap fun _ => .done (i, result)).bind
      fun outcome => .done (.script outcome)).Curtails r.undisturbed.1.output.toList := by
  induction r generalizing printed with
  | done outcome => exact ⟨nofun, trivial⟩
  | ask point heap resume ih =>
      obtain ⟨now, -, -, hrefused, hrest⟩ := h
      refine ⟨fun _ cause hfinal => ?_, ih (.ok ()) hrest⟩
      obtain ⟨i, hi, hprinted⟩ := hrefused cause hfinal
      refine ⟨i, ?_, i.heap, ?_⟩
      · rw [hprinted]
        exact hrest.undisturbed
      · show ((resume (.error cause)).bind _).bind _ = _
        rw [hi]
        rfl

/-- **Every script** that is refused to go on has printed the first lines of all. -/
theorem curtails_ofScript (thread : ThreadId) (i : Interpreter) (script : Script) :
    (Job.ofScript thread i script).run.Curtails (i.run script).undisturbed.1.output.toList := by
  have hfull : (i.run script).undisturbed = (i.runRoot script).undisturbed :=
    Run.undisturbed_bind (i.runRoot script) _
  rw [hfull]
  exact ⟨nofun, curtails_of_prints (prints_runRoot i script)⟩

end Pausepoint.Language

namespace Pausepoint

open Pausepoint.Language

variable {b b' : Bridge} {j j' : Job} {full : List String}

/-- A step of a job that was never refused. -/
theorem OnCourse.curtails (hsteady : j.run.Steady) (h : OnCourse j.thread b j.run.checkpoints j.phase)
    (hstep : j.advance? b = some (b', j')) (hj : j.run.Curtails full) : j'.run.Curtails full := by
  obtain ⟨point, heap, resume, hrun, ⟨-, -, rfl⟩ | ⟨phase, phase', -, -, rfl⟩ |
    ⟨reply, hphase, -, rfl⟩⟩ := Job.advance?_cases hstep
  · exact hj
  · exact hj
  · rw [hphase, hrun] at h
    rw [hrun] at hsteady hj
    dsimp only
    rw [hsteady.1 reply h.leave.1]
    exact hj.2

/-- A call was refused, after which the run reports the end of its engine, and has printed the first lines of
all that it may print. -/
def Job.Resigned (full : List String) (j : Job) : Prop :=
  ∃ heap, ∃ i : Interpreter, i.output.toList <+: full ∧
    j.run = .ask .ended heap fun _ => .done (.script (i, .error (.refused (.pauseInFlight j.thread))))

/-- **Who is refused** a pause gives up its script. -/
theorem Job.InFlight.advance (h : j.InFlight) (hj : j.run.Curtails full)
    (hstep : j.advance? b = some (b', j')) : b' = b ∧ j'.Resigned full := by
  obtain ⟨hphase, point, heap, resume, hrun, hpoint⟩ := h
  obtain ⟨_, _, _, hask, ⟨hnone, -, -⟩ | ⟨phase, phase', hsome, hadvance, -⟩ |
    ⟨reply, hreturned, rfl, rfl⟩⟩ := Job.advance?_cases hstep
  · cases hphase.symm.trans hnone
  · cases hphase.symm.trans hsome
    cases hadvance
  · cases hphase.symm.trans hreturned
    cases hrun.symm.trans hask
    rw [hrun] at hj
    obtain ⟨i, hprinted, heap', hresume⟩ := hj.1 hpoint (.pauseInFlight j.thread) nofun
    exact ⟨rfl, heap', i, hprinted, hresume⟩

/-- Who has given up its script reports the end of its engine, and that is all. -/
theorem Job.Resigned.advance (h : j.Resigned full) (hstep : j.advance? b = some (b', j')) :
    j'.Resigned full ∧ j'.result? = none ∨
      ∃ i : Interpreter, i.output.toList <+: full ∧
        j'.result? = some (.script (i, .error (.refused (.pauseInFlight j.thread)))) := by
  obtain ⟨heap, i, hprinted, hrun⟩ := h
  have hunchanged (phase : Phase) : (j.inPhase phase).Resigned full ∧ (j.inPhase phase).result? = none := by
    refine ⟨⟨heap, i, hprinted, hrun⟩, ?_⟩
    rw [Job.result?, Job.inPhase, hrun]
  obtain ⟨_, _, resume, hask, ⟨-, -, rfl⟩ | ⟨_, phase', -, -, rfl⟩ | ⟨reply, -, -, rfl⟩⟩ :=
    Job.advance?_cases hstep
  · exact .inl (hunchanged _)
  · exact .inl (hunchanged _)
  · cases hrun.symm.trans hask
    exact .inr ⟨i, hprinted, rfl⟩

end Pausepoint
