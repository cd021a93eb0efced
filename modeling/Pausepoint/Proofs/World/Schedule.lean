import Pausepoint.Proofs.World.Moves

/-!
# Pausepoint.Proofs.World.Schedule

Runs by a given schedule.

`World.Moves` leaves open who moves next. A schedule says it, choice by choice, so that a single run can
be computed: `World.play` follows a schedule for as long as every choice is possible, and
`execution_of_play` says that this is a run.
-/

namespace Pausepoint.World

/-- Who moves next. -/
inductive Choice
  /-- The dispatcher. -/
  | dispatch
  /-- The only job makes its next step. -/
  | job
  /-- The only job gives up. -/
  | giveUp
  | begin (j : Job)
  /-- The control side makes a call. -/
  | call (c : ControlCall)

/-- The move that a choice is, if it is possible. -/
def move? (w : World) : Choice → Option (Act × World)
  | .dispatch =>
      if Ends w.session then none
      else w.dispatchStep?.map fun next => (.dispatch w.session.worker.agenda.head?, next.1)
  | .job =>
      match w.jobs with
      | [j] => (j.advance? w.bridge).map fun next =>
          (.step j.thread j.phase next.2.phase, w.advanced next.1 [] next.2 [])
      | _ => none
  | .giveUp =>
      match w.jobs with
      | [j] => (j.giveUp? w.bridge).map fun next =>
          (.step j.thread j.phase next.2.phase, w.advanced next.1 [] next.2 [])
      | _ => none
  | .begin j =>
      match j.phase with
      | none => if j.thread ∈ w.jobs.map Job.thread then none else some (.begin j.thread, w.begin j)
      | some _ => none
  | .call .cancel => none
  | .call c => some (.call c, w.withSession (c.run w.session))

theorem moves_of_move? {w w' : World} {choice : Choice} {act : Act}
    (h : w.move? choice = some (act, w')) : Moves w act w' := by
  unfold move? at h
  split at h
  · split at h
    · cases h
    · next hends =>
        obtain ⟨⟨next, reports⟩, hstep, hnext⟩ := Option.map_eq_some_iff.mp h
        cases hnext
        exact .dispatch hstep hends
  · split at h
    · next j hjobs =>
        obtain ⟨⟨b, j'⟩, hstep, hnext⟩ := Option.map_eq_some_iff.mp h
        cases hnext
        exact .step hjobs hstep
    · cases h
  · split at h
    · next j hjobs =>
        obtain ⟨⟨b, j'⟩, hstep, hnext⟩ := Option.map_eq_some_iff.mp h
        cases hnext
        exact .giveUp hjobs hstep
    · cases h
  · split at h
    · next hphase =>
        split at h
        · cases h
        · next hnew =>
            cases h
            exact .begin w.nextHeap hphase hnew
    · cases h
  · cases h
  · next c hc =>
      cases h
      exact .call w c fun he => hc (he ▸ rfl)

/-- The moves of a schedule, and the world they lead to. -/
def play (w : World) : List Choice → Option (List Act × World)
  | [] => some ([], w)
  | choice :: rest =>
      match w.move? choice with
      | some (act, w') => (play w' rest).map fun last => (act :: last.1, last.2)
      | none => none

/-- **A schedule is followed by a run.** -/
theorem execution_of_play {start w w' : World} {trace acts : List Act} {schedule : List Choice}
    (h : Execution Moves start trace w) (hplay : w.play schedule = some (acts, w')) :
    Execution Moves start (trace ++ acts) w' := by
  induction schedule generalizing trace w acts with
  | nil =>
      cases hplay
      rw [List.append_nil]
      exact h
  | cons choice rest ih =>
      unfold play at hplay
      split at hplay
      · next act next hmove =>
          obtain ⟨⟨later, last⟩, hrest, hlast⟩ := Option.map_eq_some_iff.mp hplay
          cases hlast
          rw [List.append_cons]
          exact ih (h.next (moves_of_move? hmove)) hrest
      · cases hplay

/-- The moves of a schedule and the world they lead to, or none at all if some choice is not possible. -/
def played (w : World) (schedule : List Choice) : List Act × World :=
  (w.play schedule).getD ([], w)

theorem execution_played (w : World) (schedule : List Choice) :
    Execution Moves w (w.played schedule).1 (w.played schedule).2 := by
  unfold played
  cases hplay : w.play schedule with
  | none => exact .start
  | some next => exact execution_of_play .start hplay

/-- Does a choice leave the control side alone, and begin nothing? -/
def Choice.isFree : Choice → Bool
  | .dispatch | .job | .giveUp => true
  | .begin _ | .call _ => false

theorem isStep_of_move? {w w' : World} {choice : Choice} {act : Act} (hfree : choice.isFree = true)
    (h : w.move? choice = some (act, w')) : act.IsStep := by
  cases choice with
  | dispatch =>
      simp only [move?] at h
      split at h
      · cases h
      · obtain ⟨next, -, hnext⟩ := Option.map_eq_some_iff.mp h
        cases hnext
        trivial
  | job | giveUp =>
      simp only [move?] at h
      split at h
      · obtain ⟨next, -, hnext⟩ := Option.map_eq_some_iff.mp h
        cases hnext
        trivial
      · cases h
  | begin | call => cases hfree

/-- **A free schedule is followed by steps** of dispatcher and job alone. -/
theorem isStep_of_played {w : World} {schedule : List Choice}
    (hfree : schedule.all Choice.isFree = true) : ∀ act ∈ (w.played schedule).1, act.IsStep := by
  suffices hall : ∀ {acts w'}, w.play schedule = some (acts, w') → ∀ act ∈ acts, act.IsStep by
    unfold played
    cases hplay : w.play schedule with
    | none => exact fun act hact => absurd hact List.not_mem_nil
    | some next => exact hall hplay
  intro acts w' hplay
  induction schedule generalizing w acts with
  | nil =>
      cases hplay
      exact fun act hact => absurd hact List.not_mem_nil
  | cons choice rest ih =>
      rw [List.all_cons, Bool.and_eq_true] at hfree
      unfold play at hplay
      split at hplay
      · next act next hmove =>
          obtain ⟨⟨later, last⟩, hrest, hlast⟩ := Option.map_eq_some_iff.mp hplay
          cases hlast
          intro act' hact
          rcases List.mem_cons.mp hact with rfl | hact
          · exact isStep_of_move? hfree.1 hmove
          · exact ih hfree.2 hrest act' hact
      · cases hplay

/-- A step of the dispatcher by itself. -/
theorem moves_played_dispatch {w : World} (hends : ¬ Ends w.session)
    (h : w.dispatchStep?.isSome = true) :
    Moves w (.dispatch w.session.worker.agenda.head?) (w.played [.dispatch]).2 := by
  obtain ⟨⟨next, reports⟩, hstep⟩ := Option.isSome_iff_exists.mp h
  have hplayed : (w.played [.dispatch]).2 = next := by
    simp [played, play, move?, hends, hstep]
  rw [hplayed]
  exact .dispatch hstep hends

end Pausepoint.World
