import Pausepoint.World.Basic

/-!
# Coming to rest

Everyone makes steps until nobody can make one. There is no bound on their number: whatever state a world is
in, every step brings it closer to rest (`World.closer_of_step`), because

* a job makes few steps for each of its checkpoints, and its run is a finite tree;
* a trap works once;
* the dispatcher alone works off what waits. A report may bring commands, but a command brings nothing but
  tasks, and who has begun to close takes no more events.

`World.Closer` compares two worlds by these three, in this order.

`World.settle` makes steps until there is none left: everyone has finished or waits.
-/

namespace Pausepoint

/-! ### Jobs -/

/-- What is left of a run after a reply. -/
def Language.Run.IsRest {α : Type} (rest r : Run α) : Prop :=
  ∃ point heap resume reply, r = .ask point heap resume ∧ rest = resume reply

theorem Language.Run.wellFounded_isRest {α : Type} : WellFounded (@IsRest α) := by
  refine ⟨fun r => ?_⟩
  induction r with
  | done a =>
      refine ⟨_, ?_⟩
      intro rest ⟨point, heap, resume, reply, h, _⟩
      cases h
  | ask point heap resume ih =>
      refine ⟨_, ?_⟩
      intro rest ⟨_, _, _, reply, h, hrest⟩
      cases h
      exact hrest ▸ ih reply

/-- What a job has still to do: its run, and the steps of the call it is in. -/
def Job.effort (j : Job) : Language.Run JobResult × Nat :=
  (j.run, (j.phase.map Phase.stepsLeft).getD 7)

/-- **Every step of a job takes something off its effort.** -/
theorem Job.effort_advance {b b' : Bridge} {j j' : Job} (h : j.advance? b = some (b', j')) :
    Prod.Lex Language.Run.IsRest (· < ·) j'.effort j.effort := by
  unfold advance? at h
  split at h
  · cases h
  · next point heap resume hrun =>
      split at h
      · next hphase =>
          cases h
          refine Prod.lex_def.mpr (.inr ⟨rfl, ?_⟩)
          have hfirst : (Job.begin b point).2.stepsLeft < 7 := by
            cases point <;> simp [Job.begin, Phase.stepsLeft]
          simp only [effort, inPhase, hphase]
          exact hfirst
      · next reply hphase =>
          cases h
          exact Prod.lex_def.mpr (.inl ⟨point, heap, resume, reply, hrun, rfl⟩)
      · next phase hne hphase =>
          obtain ⟨⟨b₁, phase'⟩, hadvance, hj⟩ := Option.map_eq_some_iff.mp h
          cases hj
          refine Prod.lex_def.mpr (.inr ⟨rfl, ?_⟩)
          simpa [effort, inPhase, hphase] using Phase.stepsLeft_advance hadvance

/-- One of several things became less, or is gone. -/
inductive Lowers {α : Type} (less : α → α → Prop) : List α → List α → Prop
  | gone (a : α) (rest : List α) : Lowers less rest (a :: rest)
  | less {a' a : α} (h : less a' a) (rest : List α) : Lowers less (a' :: rest) (a :: rest)
  | later (a : α) {rest' rest : List α} (h : Lowers less rest' rest) : Lowers less (a :: rest') (a :: rest)

theorem wellFounded_lowers {α : Type} {less : α → α → Prop} (h : WellFounded less) :
    WellFounded (Lowers less) := by
  refine ⟨fun as => ?_⟩
  induction as with
  | nil =>
      refine ⟨_, ?_⟩
      intro as' hless
      cases hless
  | cons a rest ih =>
      -- Both the first and the rest may become less, in any order.
      induction h.apply a generalizing rest with
      | intro a _ iha =>
          induction ih with
          | intro rest hrest ihrest =>
              refine ⟨_, ?_⟩
              intro as' hless
              cases hless with
              | gone => exact ⟨_, hrest⟩
              | less ha => exact iha _ ha rest ⟨_, hrest⟩
              | later _ hlater => exact ihrest _ hlater

theorem Lowers.append {α : Type} {less : α → α → Prop} (before : List α) {rest' rest : List α}
    (h : Lowers less rest' rest) : Lowers less (before ++ rest') (before ++ rest) := by
  induction before with
  | nil => exact h
  | cons a before ih => exact .later a ih

/-! ### Traps -/

/-- How often traps may still be passed. -/
def passesLeft : List Trap → Nat
  | [] => 0
  | trap :: rest => trap.skip + 1 + passesLeft rest

/-- Whoever comes to a place passes traps there, or there are none. -/
theorem passesLeft_spring (place : Place) (thread : Option ThreadId) (traps : List Trap) :
    passesLeft (spring place thread traps).2 < passesLeft traps ∨
      spring place thread traps = (none, traps) := by
  induction traps with
  | nil => exact .inr rfl
  | cons t rest ih =>
      unfold spring
      split
      · refine .inl ?_
        split
        · simp [passesLeft]
        · next skip hskip =>
            have hrest : passesLeft (spring place thread rest).2 ≤ passesLeft rest := by
              rcases ih with hless | hsame
              · exact Nat.le_of_lt hless
              · exact Nat.le_of_eq (congrArg (fun after => passesLeft after.2) hsame)
            simp only [passesLeft]
            omega
      · rcases ih with hless | hsame
        · refine .inl ?_
          simpa [passesLeft] using hless
        · exact .inr (by rw [hsame])

/-! ### The dispatcher -/

namespace Session

/-- Is this the last task? -/
def isFinish : Task → Bool
  | .finish _ => true
  | _ => false

/-- Does it queue a command? -/
def isFollowUp : Task → Bool
  | .followUp _ => true
  | _ => false

def isReport : Event → Bool
  | .notification _ => true
  | .command _ => false

/-- What the dispatcher has still to do: whether it has yet to begin to close, how many reports wait, how
many commands do or are about to, and how many tasks there are. -/
def backlog (s : Session) : Nat × Nat × Nat × Nat :=
  (if s.worker.exit.isSome || s.worker.agenda.any isFinish then 0 else 1,
    s.queue.events.countP isReport,
    s.queue.events.countP (!isReport ·) + s.worker.agenda.countP isFollowUp,
    s.worker.agenda.length)

/-- Less is left to do. -/
def LessWork : Nat × Nat × Nat × Nat → Nat × Nat × Nat × Nat → Prop :=
  Prod.Lex (· < ·) (Prod.Lex (· < ·) (Prod.Lex (· < ·) (· < ·)))

/-- A command that follows is queued, or lost. -/
theorem effect_followUp (s : Session) (c : Command) :
    (s.effect (.followUp c)).worker = s.worker ∧
      ((s.effect (.followUp c)).queue.events = s.queue.events ∨
        (s.effect (.followUp c)).queue.events = s.queue.events ++ [.command c]) := by
  unfold effect submit EventQueue.submit
  dsimp only
  split
  · next h =>
      split at h
      · cases h
      · split at h <;> cases h
        · exact ⟨rfl, .inl rfl⟩
        · exact ⟨rfl, .inr rfl⟩
  · exact ⟨rfl, .inl rfl⟩

/-- **Every task** is one less, and a command that follows is only moved to the queue. -/
theorem lessWork_perform {s s' : Session} {task : Task} (h : s.perform? = some (task, s')) :
    LessWork s'.backlog s.backlog := by
  unfold perform? at h
  split at h
  · cases h
  · next task rest hagenda =>
      cases h
      simp only [LessWork, Prod.lex_def, backlog, hagenda]
      cases task with
      | followUp c =>
          obtain ⟨hworker, hevents⟩ :=
            effect_followUp { s with worker := { s.worker with agenda := rest } } c
          have hone : List.countP isFollowUp (.followUp c :: rest) = rest.countP isFollowUp + 1 :=
            List.countP_cons_of_pos rfl
          rw [hworker, hone]
          refine .inr ⟨rfl, ?_⟩
          rcases hevents with hevents | hevents
          · rw [hevents]
            simp
          · rw [hevents]
            simp [List.countP_append, isReport]
            omega
      | closeQueue =>
          refine .inr ⟨rfl, ?_⟩
          have hsame : List.countP isFollowUp (.closeQueue :: rest) = rest.countP isFollowUp :=
            List.countP_cons_of_neg (by decide)
          simp only [effect, EventQueue.close, List.countP_nil, hsame, List.length_cons]
          omega
      | release | releaseAll | callback | command | forward | lastCallback | closeGate | forwardClosed
      | announceClosed | finish => simp [effect, isFollowUp, isFinish]

/-- A command brings no commands. -/
theorem countP_commandTasks (t : Target) (c : Command) :
    (commandTasks c (t.handleCommand c).1).countP isFollowUp = 0 := by
  have hcallbacks (cs : List Callback) : (cs.map Task.callback).countP isFollowUp = 0 := by
    simp [List.countP_eq_zero, isFollowUp]
  unfold commandTasks
  rw [t.followUps_handleCommand c]
  split
  · cases c <;> simp [hcallbacks, releaseTasks, closing, isFollowUp]
  · simp [hcallbacks]

/-- The next event is the oldest one. -/
theorem events_of_next {q rest : EventQueue} {e : Event} (h : q.next = .event e rest) :
    q.events = e :: rest.events := by
  unfold EventQueue.next at h
  split at h
  · cases h
  · split at h
    · next hevents =>
        cases h
        exact hevents
    · split at h <;> cases h

/-- **Every event** is one less, and who finds none begins to close. -/
theorem lessWork_take {s s' : Session} (h : s.take? = some s') : LessWork s'.backlog s.backlog := by
  unfold take? at h
  split at h
  · next hidle =>
      obtain ⟨hagenda, hexit⟩ : s.worker.agenda = [] ∧ s.worker.exit = none := by
        simpa [isIdle] using hidle
      have hopen : s.backlog.1 = 1 := by simp [backlog, hagenda, hexit]
      have hatMost : s'.backlog.1 ≤ 1 := by
        simp only [backlog]
        split <;> decide
      rw [LessWork, Prod.lex_def, Prod.lex_def, Prod.lex_def, hopen]
      refine (Nat.lt_or_eq_of_le hatMost).imp_right ?_
      intro hone
      refine ⟨hone, ?_⟩
      split at h
      · next e queue hnext =>
          cases h
          have hevents := events_of_next hnext
          cases e with
          | notification n =>
              refine .inl ?_
              simp [backlog, handle, hevents, List.countP_cons, isReport]
          | command c =>
              have hnone := countP_commandTasks s.target c
              refine .inr ⟨?_, .inl ?_⟩
              · simp [backlog, handle, hevents, isReport]
              · simp [backlog, handle, hevents, isReport, hagenda, hnone]
      · cases h
        simp [backlog, closing, isFinish] at hone
      · cases h
  · cases h

end Session

/-! ### Worlds -/

namespace World

/-- What a world has still to do. -/
def remaining (w : World) : List (Language.Run JobResult × Nat) × Nat × Nat × Nat × Nat × Nat :=
  (w.jobs.map Job.effort, passesLeft w.traps, w.session.backlog)

/-- Less is left to do. -/
def LessLeft : List (Language.Run JobResult × Nat) × Nat × Nat × Nat × Nat × Nat →
    List (Language.Run JobResult × Nat) × Nat × Nat × Nat × Nat × Nat → Prop :=
  Prod.Lex (Lowers (Prod.Lex Language.Run.IsRest (· < ·))) (Prod.Lex (· < ·) Session.LessWork)

theorem wellFounded_lessLeft : WellFounded LessLeft := by
  have hnat : WellFounded fun m n : Nat => m < n := Nat.lt_wfRel.wf
  have hwork : WellFounded Session.LessWork :=
    (Prod.lex ⟨_, hnat⟩ (Prod.lex ⟨_, hnat⟩ (Prod.lex ⟨_, hnat⟩ ⟨_, hnat⟩))).wf
  have heffort : WellFounded (Prod.Lex (@Language.Run.IsRest JobResult) fun m n : Nat => m < n) :=
    (Prod.lex ⟨_, Language.Run.wellFounded_isRest⟩ ⟨_, hnat⟩).wf
  exact (Prod.lex ⟨_, wellFounded_lowers heffort⟩ (Prod.lex ⟨_, hnat⟩ ⟨_, hwork⟩)).wf

/-- One world is closer to rest than another. -/
def Closer (w' w : World) : Prop :=
  LessLeft w'.remaining w.remaining

theorem wellFounded_closer : WellFounded Closer :=
  InvImage.wf remaining wellFounded_lessLeft

instance : WellFoundedRelation World :=
  ⟨Closer, wellFounded_closer⟩

/-- What clients get to know is no work. -/
theorem remaining_noteStop (w : World) (task : Task) : (w.noteStop task).remaining = w.remaining := by
  unfold noteStop
  split
  · next thread _ =>
      have hflag (j : Job) : (if j.thread = thread then j.noteStop else j).effort = j.effort := by
        split <;> rfl
      simp [remaining, Function.comp_def, hflag]
      rfl
  · rfl

/-- A client that interrupts the dispatcher has passed a trap. -/
theorem interrupt_cases (w : World) (task : Task) : (w.interrupt task).jobs = w.jobs ∧
    (passesLeft (w.interrupt task).traps < passesLeft w.traps ∨ w.interrupt task = w) := by
  unfold interrupt
  split
  · exact ⟨rfl, .inr rfl⟩
  · next place hplace =>
      rcases passesLeft_spring place task.thread? w.traps with hless | hsame
      · generalize spring place task.thread? w.traps = sprung at hless ⊢
        obtain ⟨interruption, traps⟩ := sprung
        dsimp only at hless ⊢
        split
        · exact ⟨rfl, .inl hless⟩
        · exact ⟨rfl, .inl hless⟩
        · split <;> exact ⟨rfl, .inl hless⟩
      · rw [hsame]
        exact ⟨rfl, .inr rfl⟩

/-- The dispatcher makes a step. -/
theorem closer_of_dispatchStep? {w w' : World} {reports : List Report}
    (h : w.dispatchStep? = some (w', reports)) : Closer w' w := by
  unfold dispatchStep? at h
  split at h
  · cases h
  · split at h
    · next task session hperform =>
        cases h
        let next : World :=
          { w with bridge := { session, engine := if w.attached then effectOnEngine w.engine task else w.engine } }
        have hsame : (next.noteStop task).remaining = next.remaining := next.remaining_noteStop task
        obtain ⟨hjobs, hless | hnone⟩ := (next.noteStop task).interrupt_cases task
        · refine Prod.lex_def.mpr (.inr ⟨?_, Prod.lex_def.mpr (.inl ?_)⟩)
          · exact (congrArg (List.map Job.effort) hjobs).trans (congrArg Prod.fst hsame)
          · exact Nat.lt_of_lt_of_eq hless (congrArg (fun r => r.2.1) hsame)
        · rw [hnone, Closer, hsame]
          refine Prod.lex_def.mpr (.inr ⟨rfl, Prod.lex_def.mpr (.inr ⟨rfl, ?_⟩)⟩)
          exact Session.lessWork_perform hperform
    · obtain ⟨session, htake, hw⟩ := Option.map_eq_some_iff.mp h
      cases hw
      refine Prod.lex_def.mpr (.inr ⟨rfl, Prod.lex_def.mpr (.inr ⟨rfl, ?_⟩)⟩)
      exact Session.lessWork_take htake

theorem closer_of_jobStep? {w w' : World} {reports : List Report}
    (h : w.jobStep? = some (w', reports)) : Closer w' w := by
  obtain ⟨⟨b, before, j', after⟩, hstep, hw⟩ := Option.map_eq_some_iff.mp h
  obtain ⟨passed, j, hjobs, hbefore, hj⟩ := exists_job_of_stepJobs? hstep
  rw [List.append_nil] at hbefore
  refine Prod.lex_def.mpr (.inl ?_)
  have hold : w.remaining.1 = passed.map Job.effort ++ j.effort :: after.map Job.effort := by
    simp [remaining, hjobs]
  rw [hold]
  dsimp only at hw
  split at hw <;> cases hw
  · -- The job is over.
    have hnew : List.map Job.effort (before.reverse ++ after) =
        passed.map Job.effort ++ after.map Job.effort := by simp [hbefore]
    show Lowers _ (List.map Job.effort (before.reverse ++ after)) _
    rw [hnew]
    exact .append _ (.gone _ _)
  · have hnew : List.map Job.effort (before.reverse ++ j' :: after) =
        passed.map Job.effort ++ j'.effort :: after.map Job.effort := by simp [hbefore]
    show Lowers _ (List.map Job.effort (before.reverse ++ j' :: after)) _
    rw [hnew]
    exact .append _ (.less (Job.effort_advance hj) _)

/-- **Every step brings a world closer to rest.** -/
theorem closer_of_step {w w' : World} {reports : List Report} (h : w.step? = some (w', reports)) :
    WellFoundedRelation.rel w' w := by
  unfold step? at h
  split at h
  · next hd =>
      cases h
      exact closer_of_dispatchStep? hd
  · exact closer_of_jobStep? h

/-- Steps until there is none left, and what was seen on the way, newest first after `seen`. -/
def settleOn (w : World) (seen : List Report) : World × List Report :=
  match _h : w.step? with
  | none => (w, seen)
  | some (w', reports) => settleOn w' (reports.reverse ++ seen)
termination_by w
decreasing_by exact closer_of_step (by assumption)

/-- Steps until everyone has finished or waits; gives what was seen on the way, in order. -/
def settle (w : World) : World × List Report :=
  let (w, seen) := w.settleOn []
  (w, seen.reverse)

end World

end Pausepoint
