import Pausepoint.Cli.Controller
import Pausepoint.Proofs.World.Reference
import Pausepoint.Proofs.World.Showing

/-!
# Pausepoint.Proofs.Cli.Stops

The stops that a run shows, by the run alone.

`Plan.stops` goes once through what there is to be seen of a run without a debugger: its checkpoints, and the
scopes as they are at each of them (`Run.views`). It shows every line that holds the script, where every stop is
answered in the same mode. Nobody else has a say in it: no session, no schedule and no limit.

* `Plan.Keeps.stops_eq` — where the reference of `Plan.halts` has come after some answers, so many stops were
  shown;
* `World.showFrame_of_shows` — the frame of a stop is shown with what its scope holds.
-/

namespace Pausepoint

open Pausepoint.Language

/-! ### What there is to be seen of a run -/

/-- The checkpoints that a run passes when nothing is ever refused, each with the scopes as they are there. -/
def Language.Run.views {α : Type} : Run α → List (Checkpoint × Heap)
  | .done _ => []
  | .ask point heap resume => (point, heap) :: (resume (.ok ())).views

theorem Language.Run.map_fst_views {α : Type} (r : Run α) : r.views.map Prod.fst = r.checkpoints := by
  induction r with
  | done a => rfl
  | ask point heap resume ih => exact congrArg (point :: ·) (ih (.ok ()))

/-- A job stays where it is, or goes on to what comes next. -/
theorem OnCourse.views_suffix {b b' : Bridge} {j j' : Job} (hsteady : j.run.Steady)
    (h : OnCourse j.thread b j.run.checkpoints j.phase) (hstep : j.advance? b = some (b', j')) :
    j'.run.views <:+ j.run.views := by
  obtain ⟨point, heap, resume, hrun, ⟨-, -, rfl⟩ | ⟨phase, phase', -, -, rfl⟩ |
    ⟨reply, hphase, -, rfl⟩⟩ := Job.advance?_cases hstep
  · exact List.suffix_refl _
  · exact List.suffix_refl _
  · rw [hphase, hrun] at h
    rw [hrun] at hsteady ⊢
    dsimp only
    rw [hsteady.1 reply h.leave.1]
    exact List.suffix_cons _ _

/-! ### What is shown of it -/

/-- A frame as it is shown, by what the scopes hold. -/
def Frame.shown (bindings : ScopeId → Entries) (f : Frame) : ShownFrame :=
  { name := f.name, script := f.script.title, line := f.line, contents := f.variables bindings }

theorem Frame.shown_congr {bindings bindings' : ScopeId → Entries} {f : Frame}
    (h : ∀ scope, f.scope = some scope → bindings' scope = bindings scope) :
    f.shown bindings = f.shown bindings' := by
  unfold Frame.shown Frame.variables
  cases hscope : f.scope with
  | none => rfl
  | some scope =>
      dsimp only
      rw [h scope hscope]

namespace Plan

variable (plan : Plan)

/-- The frames of a stop that are shown. -/
def shownFrames (frames : List Frame) : List Frame :=
  if plan.settings.showDynamicCode then frames else frames.filter fun frame => !frame.isDynamic

theorem mem_of_mem_shownFrames {plan : Plan} {frame : Frame} {frames : List Frame}
    (h : frame ∈ plan.shownFrames frames) : frame ∈ frames := by
  unfold shownFrames at h
  split at h
  · exact h
  · exact List.mem_of_mem_filter h

/-- **The line that holds the script is shown**, whatever is hidden. -/
theorem shownFrames_ne_nil {script : Snapshot} {number depth : Nat} {pending : Option StepRequest}
    {reason : Reason} (h : plan.reason? script number depth pending = some reason) {i : Interpreter}
    {root : Snapshot} {site : Site} {outer : List Site} {r : Run Outcome} (hstands : i.StandsAt root site outer r)
    (hscript : site.activation.script = script) : plan.shownFrames i.frames ≠ [] := by
  have htracks : plan.tracks script = true := by
    unfold reason? at h
    split at h
    · assumption
    · cases h
  have hframes : i.frames = site.activation.frame i.heapNumber :: outer.map fun s =>
      s.activation.frame i.heapNumber := by
    rw [Interpreter.frames, hstands.stack, List.map_cons, List.map_map]
    rfl
  have hdynamic : (site.activation.frame i.heapNumber).isDynamic = script.isDynamic := by
    rw [Activation.isDynamic_frame, hstands.on.isDynamic_eq, hscript]
  rw [hframes, shownFrames]
  split
  · exact List.cons_ne_nil _ _
  · next hhide =>
      rw [List.filter_cons_of_pos]
      · exact List.cons_ne_nil _ _
      · rw [hdynamic]
        simpa [tracks, hhide] using htracks

/-- A line that holds the script, as it is shown. -/
def display (thread : ThreadId) (frames : List Frame) (reason : Reason) (heap : Heap) : ShownStop :=
  { thread
    reason := some reason
    frames := (plan.shownFrames frames).map (Frame.shown fun scope => heap.bindings scope.index) }

/-- **The stops that a run shows** if every one of them is answered in the same mode. -/
def stops (thread : ThreadId) (mode : Mode) (pending : Option StepRequest) :
    List (Checkpoint × Heap) → List ShownStop
  | [] => []
  | (.started, _) :: rest | (.ended, _) :: rest => stops thread mode pending rest
  | (.load script depth, _) :: rest => stops thread mode (plan.afterLoad script depth pending) rest
  | (.line script number depth frames, heap) :: rest =>
      match plan.reason? script number depth pending with
      | none => stops thread mode pending rest
      | some reason => plan.display thread frames reason heap :: stops thread mode (mode.begins depth) rest

section

variable {plan} {thread : ThreadId} {mode : Mode} {pending : Option StepRequest} {script : Snapshot}
  {number depth : Nat} {frames : List Frame} {heap : Heap} {views rest : List (Checkpoint × Heap)}

theorem stops_pass (h : plan.reason? script number depth pending = none) :
    plan.stops thread mode pending ((.line script number depth frames, heap) :: rest) =
      plan.stops thread mode pending rest := by
  simp only [stops, h]

theorem stops_halt {reason : Reason} (h : plan.reason? script number depth pending = some reason) :
    plan.stops thread mode pending ((.line script number depth frames, heap) :: rest) =
      plan.display thread frames reason heap :: plan.stops thread mode (mode.begins depth) rest := by
  simp only [stops, h]

/-- **Where the reference has come after some answers**, so many stops were shown, and the others are those of
the rest of the run. -/
theorem Keeps.stops_eq {answers : List Mode} {seen : List Halt} {left : List Checkpoint}
    (h : plan.Keeps (views.map Prod.fst) answers seen pending left) (thread : ThreadId)
    (hmode : ∀ answer ∈ answers, answer = mode) :
    ∃ shown rest, rest <:+ views ∧ rest.map Prod.fst = left ∧ shown.length = answers.length ∧
      plan.stops thread mode none views = shown ++ plan.stops thread mode pending rest := by
  -- One more checkpoint is passed, which is the first of the rest.
  have hnext {point : Checkpoint} {left : List Checkpoint} {rest : List (Checkpoint × Heap)}
      (hsuffix : rest <:+ views) (hrest : rest.map Prod.fst = point :: left) :
      ∃ heap later, rest = (point, heap) :: later ∧ later <:+ views ∧ later.map Prod.fst = left := by
    cases rest with
    | nil => cases hrest
    | cons view later =>
        obtain ⟨hpoint, hlater⟩ := List.cons.inj hrest
        exact ⟨view.2, later, by rw [← hpoint], (List.suffix_cons view later).trans hsuffix, hlater⟩
  induction h with
  | start => exact ⟨[], views, List.suffix_refl _, rfl, rfl, rfl⟩
  | skip _ hpoint ih =>
      obtain ⟨shown, rest, hsuffix, hrest, hlength, hall⟩ := ih hmode
      obtain ⟨heap, later, rfl, hlater, hleft⟩ := hnext hsuffix hrest
      refine ⟨shown, later, hlater, hleft, hlength, hall.trans ?_⟩
      rcases hpoint with rfl | rfl <;> rfl
  | load _ ih =>
      obtain ⟨shown, rest, hsuffix, hrest, hlength, hall⟩ := ih hmode
      obtain ⟨heap, later, rfl, hlater, hleft⟩ := hnext hsuffix hrest
      exact ⟨shown, later, hlater, hleft, hlength, hall⟩
  | pass _ hnone ih =>
      obtain ⟨shown, rest, hsuffix, hrest, hlength, hall⟩ := ih hmode
      obtain ⟨heap, later, rfl, hlater, hleft⟩ := hnext hsuffix hrest
      exact ⟨shown, later, hlater, hleft, hlength, hall.trans (by rw [stops_pass hnone])⟩
  | @answer _ _ _ script number depth frames reason left _ hsome answer ih =>
      obtain ⟨shown, rest, hsuffix, hrest, hlength, hall⟩ :=
        ih fun other hother => hmode other (List.mem_append_left _ hother)
      obtain ⟨heap, later, rfl, hlater, hleft⟩ := hnext hsuffix hrest
      obtain rfl : answer = mode := hmode answer (List.mem_append_right _ List.mem_cons_self)
      refine ⟨shown ++ [plan.display thread frames reason heap], later, hlater, hleft, ?_, hall.trans ?_⟩
      · rw [List.length_append, List.length_append, hlength]
        rfl
      · rw [stops_halt hsome, List.append_assoc, List.singleton_append]

end

end Plan

/-! ### What is read of a frame -/

theorem Target.shown_eq {plan : Plan} {t : Target} (h : t.options = plan.settings.targetOptions)
    (frames : List Frame) : t.shown frames = plan.shownFrames frames := by
  unfold shown Plan.shownFrames
  rw [h]
  rfl

/-- **A frame of a stop is shown** with what its scope holds. -/
theorem World.showFrame_of_shows {w : World} {thread : ThreadId} {t : DebugThread}
    (ht : w.session.target.thread? thread = some t) {slot : Nat} {p : PublishedFrame}
    (hp : t.published[slot]? = some p) {frame : Frame} (hshows : p.Shows frame w.bindings) :
    w.showFrame ⟨thread, slot⟩ = (some (frame.shown w.bindings), (w.readVariables ⟨thread, slot⟩).2) := by
  have hpublished : w.published? ⟨thread, slot⟩ = some p := by
    unfold published?
    rw [ht]
    exact hp
  unfold showFrame Frame.shown
  rw [hpublished, ← readVariables_of_shows ht hp hshows, ← hshows.same]

end Pausepoint
