import Pausepoint.Proofs.World.Moves

/-!
# Pausepoint.Proofs.World.AnyStep

The world when nothing is excluded.

`World.Moves` leaves out what would end a session. Here it may end in every way: the dispatcher takes
whatever is next, the control side may cancel, others may report and give up for any thread, and clients
may hold the dispatcher up or fail in it at any moment.

* `World.AnyStep` — one step of anyone;
* `dispatchStep?_frame` — what a step of the dispatcher leaves alone even when clients interrupt it;
* `anyStep_of_step?` — the scheduler makes steps of this kind.
-/

namespace Pausepoint

/-- A job as it begins: a single call of the engine, or a run of a script. -/
def Job.Begins (j : Job) : Prop :=
  (∃ point, j = .ofCheckpoint j.thread point) ∨ ∃ i script, j = .ofScript j.thread i script

namespace World

/-- One step of anyone: as in `Moves`, but every command may be taken and every call made; besides, notifications
and abandoned pauses may come from elsewhere, and clients may be told to hold the dispatcher or to fail. The
label is missing where it is none of the dispatcher, a job and the control side. -/
inductive AnyStep : World → Option Act → World → Prop
  | dispatch {w w' : World} {reports : List Report} (h : w.dispatchStep? = some (w', reports)) :
      AnyStep w (some (.dispatch w.session.worker.agenda.head?)) w'
  | step {w : World} {b : Bridge} {before after : List Job} {j j' : Job}
      (hjobs : w.jobs = before ++ j :: after) (h : j.advance? w.bridge = some (b, j')) :
      AnyStep w (some (.step j.thread j.phase j'.phase)) (w.advanced b before j' after)
  | giveUp {w : World} {b : Bridge} {before after : List Job} {j j' : Job}
      (hjobs : w.jobs = before ++ j :: after) (h : j.giveUp? w.bridge = some (b, j')) :
      AnyStep w (some (.step j.thread j.phase j'.phase)) (w.advanced b before j' after)
  | begin {w : World} {j : Job} (nextHeap : Nat) (hbegins : j.Begins)
      (hnew : j.thread ∉ w.jobs.map Job.thread) :
      AnyStep w (some (.begin j.thread)) ({ w with nextHeap }.begin j)
  | call (w : World) (c : ControlCall) : AnyStep w (some (.call c)) (w.withSession (c.run w.session))
  | report (w : World) (n : Notification) : AnyStep w none (w.withSession (w.session.notify n).2)
  | abandonPause (w : World) (thread : ThreadId) :
      AnyStep w none (w.withSession (w.session.abandonPause thread).2)
  | interrupt (w : World) (traps : List Trap) (held : Bool) : AnyStep w none { w with traps, held }

/-- Client code may fail in a task, and nothing worse. -/
theorem interrupt_frame (w : World) (task : Task) : (w.interrupt task).attached = w.attached ∧
    (w.interrupt task).jobs = w.jobs ∧ (w.interrupt task).engine = w.engine ∧
    ((w.interrupt task).session = w.session ∨
      Session.isFatal task = true ∧ ∃ message, (w.interrupt task).session = w.session.fail message) := by
  unfold interrupt
  split
  · exact ⟨rfl, rfl, rfl, .inl rfl⟩
  · dsimp only
    split
    · exact ⟨rfl, rfl, rfl, .inl rfl⟩
    · exact ⟨rfl, rfl, rfl, .inl rfl⟩
    · split
      · next hfatal => exact ⟨rfl, rfl, rfl, .inr ⟨hfatal, _, rfl⟩⟩
      · exact ⟨rfl, rfl, rfl, .inl rfl⟩

/-- **What a step of the dispatcher does**, whatever clients do meanwhile: a task, which the engine may see
and in which client code may fail, or the next event. -/
theorem dispatchStep?_frame {w w' : World} {reports : List Report}
    (h : w.dispatchStep? = some (w', reports)) : w'.attached = w.attached ∧ SameCalls w.jobs w'.jobs ∧
      ((∃ task session, w.session.perform? = some (task, session) ∧
          (w'.session = session ∨
            Session.isFatal task = true ∧ ∃ message, w'.session = session.fail message) ∧
          w'.engine = if w.attached then effectOnEngine w.engine task else w.engine) ∨
        w.session.perform? = none ∧ w.session.take? = some w'.session ∧ w'.engine = w.engine) := by
  unfold dispatchStep? at h
  split at h
  · cases h
  · split at h
    · next task session hperform =>
        cases h
        let engine := if w.attached then effectOnEngine w.engine task else w.engine
        let next : World := { w with bridge := { session, engine } }
        obtain ⟨hattached, -, -, hsame, hbridge⟩ := next.noteStop_frame task
        obtain ⟨hattached', hjobs, hengine, hsession⟩ := (next.noteStop task).interrupt_frame task
        rw [World.engine, World.engine, hbridge] at hengine
        rw [World.session, World.session, hbridge] at hsession
        exact ⟨hattached'.trans hattached, hjobs ▸ hsame, .inl ⟨task, session, hperform, hsession, hengine⟩⟩
    · next hperform =>
        obtain ⟨session, htake, hw⟩ := Option.map_eq_some_iff.mp h
        cases hw
        exact ⟨rfl, .refl _, .inr ⟨hperform, htake, rfl⟩⟩

/-- What the dispatcher does is what comes first on its agenda. -/
theorem dispatchStep?_of_anyStep {w w' : World} {task : Option Task}
    (h : AnyStep w (some (.dispatch task)) w') :
    (∃ reports, w.dispatchStep? = some (w', reports)) ∧ w.session.worker.agenda.head? = task := by
  generalize hact : some (Act.dispatch task) = act at h
  cases h with
  | dispatch hd => exact ⟨⟨_, hd⟩, (Act.dispatch.inj (Option.some.inj hact)).symm⟩
  | step | giveUp | begin | call | report | abandonPause | interrupt => cases hact

/-! ### The scheduler -/

/-- Every step of the scheduler is a step of the dispatcher or of a job. -/
theorem anyStep_of_step? {w w' : World} {reports : List Report} (h : w.step? = some (w', reports)) :
    ∃ act, AnyStep w (some act) w' ∧ act.IsStep := by
  unfold step? at h
  split at h
  · next next hd =>
      cases h
      exact ⟨_, .dispatch hd, trivial⟩
  · obtain ⟨b, before, after, j, j', hjobs, hj, rfl⟩ := jobStep?_cases h
    exact ⟨_, .step hjobs hj, trivial⟩

/-- **The scheduler is one of the ways to move**, wherever the steps that it makes are free. -/
theorem execution_settleFrom {moves : World → Option Act → World → Prop} {start w : World}
    {trace : List (Option Act)} (h : Execution moves start trace w) (limit : Nat)
    (hfree : ∀ k < limit, ∀ act w', AnyStep (w.settleFrom [] k).1 (some act) w' → act.IsStep →
      moves (w.settleFrom [] k).1 (some act) w') :
    ∃ acts, Execution moves start (trace ++ acts) (w.settleFrom [] limit).1 ∧
      ∀ act ∈ acts, ∃ a : Act, act = some a ∧ a.IsStep := by
  induction limit generalizing trace w with
  | zero =>
      refine ⟨[], ?_, fun act hact => absurd hact List.not_mem_nil⟩
      rw [List.append_nil]
      exact h
  | succ limit ih =>
      cases hw : w.step? with
      | none =>
          refine ⟨[], ?_, fun act hact => absurd hact List.not_mem_nil⟩
          rw [settleFrom, hw, List.append_nil]
          exact h
      | some next =>
          obtain ⟨w', reports⟩ := next
          have hnext (k : Nat) : (w.settleFrom [] (k + 1)).1 = (w'.settleFrom [] k).1 := by
            rw [settleFrom, hw]
            exact fst_settleFrom w' _ _ k
          obtain ⟨act, hany, hstep⟩ := anyStep_of_step? hw
          have hfirst : moves w (some act) w' := hfree 0 (Nat.succ_pos limit) act w' hany hstep
          obtain ⟨acts, hrun, hsteps⟩ := ih (h.next hfirst) fun k hk => by
            rw [← hnext k]
            exact hfree (k + 1) (Nat.succ_lt_succ hk)
          refine ⟨some act :: acts, ?_, List.forall_mem_cons.mpr ⟨⟨act, rfl, hstep⟩, hsteps⟩⟩
          rw [hnext limit, List.append_cons]
          exact hrun

/-- All of them are free where nothing is excluded. -/
theorem execution_anyStep_settleFrom {start w : World} {trace : List (Option Act)}
    (h : Execution AnyStep start trace w) (limit : Nat) :
    ∃ acts, Execution AnyStep start (trace ++ acts) (w.settleFrom [] limit).1 ∧
      ∀ act ∈ acts, ∃ a : Act, act = some a ∧ a.IsStep :=
  execution_settleFrom h limit fun _ _ _ _ hany _ => hany

end World

end Pausepoint
