import Pausepoint.Proofs.Language.Obedience
import Pausepoint.Proofs.Session.Proceedings
import Pausepoint.Proofs.World.AnyStep
import Pausepoint.Proofs.World.Smooth

/-!
# Pausepoint.Proofs.World.Finality

A termination request is final for the interpreter.

`termination_is_final` is the main result, over every run of the world in which anyone may do anything
(`World.AnyStep`): once the engine was given `terminate`, it refuses every call that enters and every call
that waits without a decision, and whoever is refused reports the end of the engine and nothing else. What
it takes is that the engine is not detached afterwards: `disconnect` takes the request back
(`termination_is_undone`).

Proof shape: the engine is closed by tasks of the dispatcher only (`CallStep.frame`,
`Engine.closed_effect`), and once it is detached the dispatcher does nothing but close (`Session.Leaving`),
so that no `terminate` comes after that. `Settled` packages what every step keeps.
-/

namespace Pausepoint

open Pausepoint.Language

/-! ### Jobs that are refused -/

/-- What is left of a job that was refused to go on: its result, after the end of the engine is reported if
it is a run of a script. -/
def Language.Run.Resigns (heap : Heap) (cause : Refusal) (r : Run JobResult) : Prop :=
  r = .done (.call (.error cause)) ∨
    ∃ i, i.heap = heap ∧ r = .ask .ended heap fun _ => .done (.script (i, .error (.refused cause)))

/-- Wherever a job is refused to go on at a load or at a line, that is all that is left of it. -/
def Language.Run.Bows : Run JobResult → Prop
  | .done _ => True
  | .ask point heap resume =>
      (∀ r cause, point.request? = some r → cause.IsFinal → (resume (.error cause)).Resigns heap cause) ∧
      ∀ reply, (resume reply).Bows

theorem bows_of_yields {r : Run Outcome} (h : r.Yields) :
    ((r.bind fun (i, result) => .ask .ended i.heap fun _ => .done (i, result)).bind
      fun outcome => .done (.script outcome)).Bows := by
  induction r with
  | done outcome => exact ⟨nofun, fun _ => trivial⟩
  | ask point heap resume ih =>
      refine ⟨fun request cause _ hcause => ?_, fun reply => ih reply (h.2 reply)⟩
      obtain ⟨i, hi, hheap⟩ := h.1 cause hcause
      refine .inr ⟨i, hheap, ?_⟩
      show ((resume (.error cause)).bind _).bind _ = _
      rw [hi, ← hheap]
      rfl

/-- **Every job that begins bows to a refusal.** -/
theorem Job.Begins.bows {j : Job} (h : j.Begins) : j.run.Bows := by
  rcases h with ⟨point, hj⟩ | ⟨i, script, hj⟩
  · rw [hj]
    exact ⟨fun _ _ _ _ => .inl rfl, fun _ => trivial⟩
  · rw [hj]
    refine ⟨nofun, fun reply => ?_⟩
    cases reply with
    | error cause => trivial
    | ok => exact bows_of_yields (yields_runRoot i script)

theorem Job.Begins.phase {j : Job} (h : j.Begins) : j.phase = none := by
  rcases h with ⟨point, hj⟩ | ⟨i, script, hj⟩ <;> rw [hj] <;> rfl

theorem bows_of_advance {b b' : Bridge} {j j' : Job} (h : j.advance? b = some (b', j')) (hj : j.run.Bows) :
    j'.run.Bows := by
  obtain ⟨point, heap, resume, hrun, ⟨-, -, rfl⟩ | ⟨phase, phase', -, -, rfl⟩ | ⟨reply, -, -, rfl⟩⟩ :=
    Job.advance?_cases h
  · exact hj
  · exact hj
  · rw [hrun] at hj
    exact hj.2 reply

/-! ### The dispatcher after `disconnect` -/

namespace Session

/-- Whoever passes `disconnect` on to the engine only closes after that. -/
def Tidy (s : Session) : Prop :=
  .forward .disconnect ∉ s.worker.agenda ∨ ∃ before exit,
    s.worker.agenda = before ++ .forward .disconnect :: closing exit ∧ .forward .disconnect ∉ before

/-- The dispatcher is closing, or has done so. -/
def Leaving (s : Session) : Prop :=
  s.worker.agenda = [] ∧ s.worker.exit.isSome = true ∨
    s.worker.agenda ≠ [] ∧ ∃ before exit, before ++ s.worker.agenda = closing exit

theorem tidy_of_worker {s s' : Session} (h : s'.worker = s.worker) (ht : s.Tidy) : s'.Tidy := by
  unfold Tidy
  rwa [h]

theorem leaving_of_worker {s s' : Session} (h : s'.worker = s.worker) (hl : s.Leaving) : s'.Leaving := by
  unfold Leaving
  rwa [h]

/-- Who is closing takes no event. -/
theorem Leaving.take? {s : Session} (h : s.Leaving) : s.take? = none := by
  refine Option.eq_none_iff_forall_ne_some.mpr fun next htake => ?_
  obtain ⟨hagenda, hexit, -⟩ := take?_eq_some.mp htake
  rcases h with ⟨-, hstopped⟩ | ⟨hne, -⟩
  · simp [hexit] at hstopped
  · exact hne hagenda

/-- The tasks of closing pass nothing on, and no client code can fail in them. -/
theorem closing_tasks {exit : Exit} {task : Task} (h : task ∈ closing exit) :
    isFatal task = false ∧ ∀ c, task ≠ .forward c := by
  simp only [closing, List.mem_cons, List.not_mem_nil, or_false] at h
  obtain rfl | rfl | rfl | rfl | rfl := h <;> exact ⟨rfl, nofun⟩

theorem Leaving.task {s s' : Session} {task : Task} (h : s.Leaving) (hs : s.perform? = some (task, s')) :
    (isFatal task = false ∧ ∀ c, task ≠ .forward c) ∧ s'.Leaving := by
  obtain ⟨rest, hagenda, rfl⟩ := perform?_cases hs
  rcases h with ⟨hnil, -⟩ | ⟨-, before, exit, hclosing⟩
  · rw [hagenda] at hnil
    cases hnil
  · rw [hagenda] at hclosing
    have hmem : task ∈ closing exit := by
      rw [← hclosing]
      exact List.mem_append_right _ List.mem_cons_self
    refine ⟨closing_tasks hmem, ?_⟩
    unfold Leaving
    rw [agenda_effect, agenda_withAgenda]
    cases hrest : rest with
    | cons next others =>
        refine .inr ⟨List.cons_ne_nil _ _, before ++ [task], exit, ?_⟩
        rw [← hrest, List.append_assoc]
        exact hclosing
    | nil =>
        have hlast := congrArg List.getLast? hclosing
        rw [hrest] at hlast
        obtain rfl : task = .finish exit := by simpa [closing] using hlast
        exact .inl ⟨rfl, rfl⟩

theorem Tidy.perform {s s' : Session} {task : Task} (h : s.Tidy) (hs : s.perform? = some (task, s')) :
    s'.Tidy ∧ (task = .forward .disconnect → s'.Leaving) := by
  obtain ⟨rest, hagenda, rfl⟩ := perform?_cases hs
  unfold Tidy Leaving at *
  rw [agenda_effect, agenda_withAgenda]
  rw [hagenda] at h
  rcases h with hnone | ⟨before, exit, hsplit, hbefore⟩
  · rw [List.mem_cons, not_or] at hnone
    exact ⟨.inl hnone.2, fun htask => absurd htask.symm hnone.1⟩
  · cases before with
    | nil =>
        obtain ⟨rfl, rfl⟩ := List.cons.inj hsplit
        refine ⟨.inl fun hmem => (closing_tasks hmem).2 _ rfl, fun _ => .inr ⟨List.cons_ne_nil _ _, [], exit, rfl⟩⟩
    | cons first before =>
        obtain ⟨rfl, rfl⟩ := List.cons.inj hsplit
        rw [List.mem_cons, not_or] at hbefore
        exact ⟨.inr ⟨before, exit, rfl, hbefore.2⟩, fun htask => absurd htask.symm hbefore.1⟩

/-- What a command does before it is passed on passes nothing on. -/
theorem forward_not_mem_before (c d : Command) (effects : Effects) :
    .forward d ∉ releaseTasks c ++ effects.callbacks.map .callback ++ effects.followUps.map .followUp ++
      [.command c] := by
  have hrelease : .forward d ∉ releaseTasks c := by cases c <;> simp [releaseTasks]
  simp [hrelease]

theorem tidy_of_command {s : Session} {c : Command} {effects : Effects}
    (h : s.worker.agenda = commandTasks c effects) : s.Tidy := by
  unfold Tidy
  rw [h, commandTasks]
  have hnone := forward_not_mem_before c .disconnect effects
  split
  · rw [List.append_cons, List.append_assoc _ [Task.forward c]]
    by_cases hc : c = .disconnect
    · subst hc
      exact .inr ⟨_, .disconnected, rfl, hnone⟩
    · rw [if_neg hc, List.append_nil, List.mem_append, List.mem_singleton, Task.forward.injEq]
      exact .inl (not_or.mpr ⟨hnone, Ne.symm hc⟩)
  · refine .inl fun hmem => hnone (List.mem_append_left _ ?_)
    rw [List.append_assoc]
    exact List.mem_append_right _ hmem

theorem Tidy.take {s s' : Session} (hs : s.take? = some s') : s'.Tidy := by
  obtain ⟨-, ⟨e, rest, -, rfl⟩ | ⟨-, rfl⟩⟩ := take?_cases hs
  · have hagenda : ((s.withEvents rest).handle e).worker.agenda = s.tasksAfter e := by
      rw [agenda_handle, tasksAfter_withEvents]
    cases e with
    | command c => exact tidy_of_command hagenda
    | notification n =>
        unfold Tidy
        rw [hagenda]
        refine .inl fun hmem => ?_
        simp only [tasksAfter, notificationTasks, List.mem_append, List.mem_map, reduceCtorEq, and_false,
          exists_false, false_or] at hmem
        split at hmem
        · exact (closing_tasks hmem).2 _ rfl
        · cases hmem
  · exact .inl fun hmem => (closing_tasks hmem).2 _ rfl

/-- Whoever fails passes nothing on after that. -/
theorem tidy_fail (s : Session) (message : String) : (s.fail message).Tidy := by
  refine .inl fun hmem => ?_
  simp only [fail, List.mem_cons, List.mem_append, List.mem_map, List.cons_append, reduceCtorEq, and_false,
    exists_false, false_or] at hmem
  exact (closing_tasks hmem).2 _ rfl

end Session

/-! ### Who closes the engine -/

/-- Only `disconnect` detaches the engine, and nothing else takes back a termination. -/
theorem Engine.closed_effect (e : Engine) {task : Task} (h : task ≠ .forward .disconnect) :
    (World.effectOnEngine e task).closed = e.closed ∨
      e.closed = none ∧ (World.effectOnEngine e task).closed = some .terminated := by
  have hclose : e.close.closed = e.closed ∨ e.closed = none ∧ e.close.closed = some .terminated := by
    unfold close
    split
    · next hnone => exact .inr ⟨hnone, rfl⟩
    · exact .inl rfl
  cases task with
  | forward c =>
      by_cases hc : c = .terminate
      · subst hc
        exact hclose
      · exact .inl (World.apply_frame e ⟨hc, fun hd => h (hd ▸ rfl)⟩).1
  | forwardClosed => exact hclose
  | release | releaseAll | callback | followUp | command | lastCallback | closeQueue | closeGate
  | announceClosed | finish => exact .inl rfl

/-- What is known to the engine of its end stays known. -/
theorem Engine.isSome_closed_effect (e : Engine) (task : Task) :
    task = .forwardClosed ∨ e.closed.isSome = true →
      (World.effectOnEngine e task).closed.isSome = true := by
  have hclose : e.close.closed.isSome = true := by
    unfold close
    split
    · rfl
    · next c hc =>
        rw [hc]
        rfl
  rintro (rfl | hsome)
  · exact hclose
  · by_cases hd : task = .forward .disconnect
    · subst hd
      rfl
    · rcases e.closed_effect hd with hsame | ⟨-, hterm⟩
      · rwa [hsame]
      · rw [hterm]
        rfl

theorem Engine.timeout_effect (e : Engine) (task : Task) :
    (World.effectOnEngine e task).resumeTimeout = e.resumeTimeout := by
  have hclose : e.close.resumeTimeout = e.resumeTimeout := by
    unfold Engine.close
    split <;> rfl
  have happly (c : Command) : (e.apply c).resumeTimeout = e.resumeTimeout := by
    cases c with
    | resume thread mode =>
        unfold Engine.apply
        dsimp only
        split <;> rfl
    | terminate => exact hclose
    | disconnect | setBreakpoint => rfl
  cases task with
  | forward c =>
      unfold World.effectOnEngine
      dsimp only
      split
      · rfl
      · exact happly c
  | forwardClosed => exact hclose
  | release | releaseAll | callback | followUp | command | lastCallback | closeQueue | closeGate
  | announceClosed | finish => rfl

/-- Only a decision on a thread changes its slot. -/
theorem Engine.slots_effect (e : Engine) {thread : ThreadId} {task : Task}
    (h : ∀ mode, task ≠ .forward (.resume thread mode)) :
    (World.effectOnEngine e task).slots.get? thread = e.slots.get? thread := by
  cases task with
  | forward c =>
      by_cases hc : c ≠ .terminate ∧ c ≠ .disconnect
      · exact (World.apply_frame e hc).2.2 thread fun mode he => h mode (he ▸ rfl)
      · unfold World.effectOnEngine
        dsimp only
        split
        · rfl
        · cases c with
          | terminate =>
              rw [Engine.apply, (World.close_frame e).1]
          | disconnect => rfl
          | resume | setBreakpoint => exact absurd ⟨by simp, by simp⟩ hc
  | forwardClosed =>
      rw [World.effectOnEngine, (World.close_frame e).1]
  | release | releaseAll | callback | followUp | command | lastCallback | closeQueue | closeGate
  | announceClosed | finish => rfl

/-- The end of the session ends every wait on which nothing was decided. -/
theorem Engine.wakening_of_closed {e : Engine} {thread : ThreadId} {c : Closed} (h : e.closed = some c)
    (hslot : ∀ mode, e.slots.get? thread ≠ some (some mode)) :
    e.wakening? thread = some (.closed c) := by
  unfold wakening?
  rw [h]
  cases hget : e.slots.get? thread with
  | none => rfl
  | some content =>
      cases content with
      | none => rfl
      | some mode => exact absurd hget (hslot mode)

/-- No step of a call changes for how long pauses are waited for. -/
theorem CallStep.timeout {b b' : Bridge} {thread : ThreadId} {phase phase' : Option Phase}
    (h : CallStep b thread phase b' phase') : b'.engine.resumeTimeout = b.engine.resumeTimeout := by
  cases h with
  | takeUp => exact (World.takeUp_frame b.engine thread _ _).2.2
  | announce | silent | enter | refuse | pass | pause | openSlot | report | unreported | closed | confirm
  | abandon | excuse | leave => rfl

/-- Calls of the engine neither close it nor do they move the dispatcher. -/
theorem CallStep.frame {b b' : Bridge} {thread : ThreadId} {phase phase' : Option Phase}
    (h : CallStep b thread phase b' phase') :
    b'.session.worker = b.session.worker ∧ b'.engine.closed = b.engine.closed := by
  have hmention (n : Notification) : (b.mention n).session.worker = b.session.worker :=
    (b.session.notify_frame n).2.1
  cases h with
  | announce | report | confirm | excuse => exact ⟨hmention _, rfl⟩
  | unreported => exact ⟨hmention _, rfl⟩
  | takeUp => exact ⟨rfl, (World.takeUp_frame b.engine thread _ _).2.1⟩
  | silent | enter | refuse | pass | pause | openSlot | closed | abandon | leave => exact ⟨rfl, rfl⟩

/-! ### The world -/

namespace World

/-- **The invariant** of every run of the world: an engine that is detached gets no further command. -/
structure Settled (w : World) : Prop where
  attached : w.attached = true
  asks : ∀ j ∈ w.jobs, j.Asks
  bows : ∀ j ∈ w.jobs, j.run.Bows
  tidy : w.session.Tidy
  leaving : w.engine.closed = some .detached → w.session.Leaving

theorem settled_create (settings : DebuggerSettings) : (create settings true).Settled where
  attached := rfl
  asks _ hj := absurd hj List.not_mem_nil
  bows _ hj := absurd hj List.not_mem_nil
  tidy := .inl List.not_mem_nil
  leaving hdetached := by
    have hopen : (none : Option Closed) = some .detached := hdetached
    cases hopen

/-- A termination is taken back by nothing but `disconnect`. -/
def Keeps (w : World) (act : Option Act) (w' : World) : Prop :=
  act ≠ some (.dispatch (some (.forward .disconnect))) → w.engine.closed = some .terminated →
    w'.engine.closed = some .terminated

theorem settled_dispatch {w w' : World} {reports : List Report} (h : w.Settled)
    (hd : w.dispatchStep? = some (w', reports)) :
    w'.Settled ∧ Keeps w (some (.dispatch w.session.worker.agenda.head?)) w' := by
  obtain ⟨hattached, hsame, hstep⟩ := dispatchStep?_frame hd
  have hbows : ∀ j ∈ w'.jobs, j.run.Bows := by
    obtain ⟨f, hjobs, hf⟩ := hsame
    rw [hjobs]
    intro j hj
    obtain ⟨k, hk, rfl⟩ := List.mem_map.mp hj
    rw [(hf k).2.2]
    exact h.bows k hk
  have hasks := hsame.asks h.asks
  obtain ⟨task, session, hperform, hsession, hengine⟩ | ⟨hnone, htake, hengine⟩ := hstep
  · rw [if_pos h.attached] at hengine
    obtain ⟨rest, hagenda, -⟩ := Session.perform?_cases hperform
    obtain ⟨htidy, hleaves⟩ := h.tidy.perform hperform
    by_cases htask : task = .forward .disconnect
    · -- Client code does not fail while a command is passed on.
      have hs : w'.session = session := hsession.resolve_right fun hf => by
        rw [htask] at hf
        cases hf.1
      refine ⟨⟨hattached.trans h.attached, hasks, hbows, Session.tidy_of_worker (by rw [hs]) htidy,
        fun _ => hs ▸ hleaves htask⟩, fun hact => ?_⟩
      rw [hagenda, htask] at hact
      exact absurd rfl hact
    · have hclosed := w.engine.closed_effect htask
      rw [← hengine] at hclosed
      refine ⟨⟨hattached.trans h.attached, hasks, hbows, ?_, fun hdetached => ?_⟩, fun _ hterm => ?_⟩
      · obtain hs | ⟨-, message, hs⟩ := hsession
        · rwa [hs]
        · rw [hs]
          exact session.tidy_fail message
      · have hold := hclosed.resolve_right fun hc => by
          rw [hdetached] at hc
          cases hc.2
        obtain ⟨htame, hleaving⟩ := (h.leaving (hold ▸ hdetached)).task hperform
        have hs : w'.session = session := hsession.resolve_right fun hf => by
          rw [htame.1] at hf
          cases hf.1
        exact hs ▸ hleaving
      · rw [hterm] at hclosed
        exact hclosed.resolve_right nofun
  · refine ⟨⟨hattached.trans h.attached, hasks, hbows, Session.Tidy.take htake, fun hdetached => ?_⟩,
      fun _ hterm => hengine ▸ hterm⟩
    cases (h.leaving (hengine ▸ hdetached)).take?.symm.trans htake

/-- A job that makes a step, or gives up. -/
theorem settled_advanced {w : World} {b : Bridge} {before after : List Job} {j j' : Job} (h : w.Settled)
    (hjobs : w.jobs = before ++ j :: after) (hworker : b.session.worker = w.session.worker)
    (hclosed : b.engine.closed = w.engine.closed) (hasks : j'.Asks) (hbows : j'.run.Bows) :
    (w.advanced b before j' after).Settled where
  attached := by
    unfold advanced keepScopes
    split <;> exact h.attached
  asks := forall_jobs_advanced hjobs hasks h.asks
  bows := forall_jobs_advanced (P := fun k => k.run.Bows) hjobs hbows h.bows
  tidy := by
    rw [session, bridge_advanced]
    exact Session.tidy_of_worker hworker h.tidy
  leaving := by
    rw [session, engine, bridge_advanced, hclosed]
    exact fun hdetached => Session.leaving_of_worker hworker (h.leaving hdetached)

/-- What leaves the dispatcher and the engine alone changes nothing here. -/
theorem settled_withSession {w : World} (h : w.Settled) {session : Session}
    (hworker : session.worker = w.session.worker) : (w.withSession session).Settled where
  attached := h.attached
  asks := h.asks
  bows := h.bows
  tidy := Session.tidy_of_worker hworker h.tidy
  leaving hdetached := Session.leaving_of_worker hworker (h.leaving hdetached)

theorem settled_anyStep {w w' : World} {act : Option Act} (h : w.Settled) (hstep : AnyStep w act w') :
    w'.Settled ∧ Keeps w act w' := by
  cases hstep with
  | dispatch hd => exact settled_dispatch h hd
  | @step b before after j j' hjobs hj =>
      obtain ⟨hworker, hclosed⟩ := (callStep_of_job hj).1.frame
      have hmem : j ∈ w.jobs := by simp [hjobs]
      refine ⟨settled_advanced h hjobs hworker hclosed (asks_of_advance hj)
        (bows_of_advance hj (h.bows j hmem)), fun _ hterm => ?_⟩
      rw [engine, bridge_advanced, hclosed]
      exact hterm
  | @giveUp b before after j j' hjobs hj =>
      obtain ⟨p, milliseconds, hphase, -, -, rfl, rfl⟩ := giveUp?_cases hj
      have hmem : j ∈ w.jobs := by simp [hjobs]
      refine ⟨settled_advanced h hjobs rfl rfl (fun _ => h.asks j hmem (by rw [hphase]; rfl))
        (h.bows j hmem), fun _ hterm => ?_⟩
      rw [engine, bridge_advanced]
      exact hterm
  | @begin j nextHeap hbegins =>
      have hbridge : ({ w with nextHeap }.begin j).bridge = w.bridge := bridge_begin _ j
      refine ⟨⟨?_, forall_jobs_begin (asks_of_no_phase hbegins.phase) h.asks,
        forall_jobs_begin (P := fun k => k.run.Bows) hbegins.bows h.bows, ?_, ?_⟩, fun _ hterm => ?_⟩
      · unfold World.begin keepScopes
        split <;> exact h.attached
      · rw [session, hbridge]
        exact h.tidy
      · rw [session, engine, hbridge]
        exact h.leaving
      · rw [engine, hbridge]
        exact hterm
  | call c => exact ⟨settled_withSession h (w.session.worker_call c), fun _ hterm => hterm⟩
  | report n => exact ⟨settled_withSession h (w.session.notify_frame n).2.1, fun _ hterm => hterm⟩
  | abandonPause thread => exact ⟨settled_withSession h rfl, fun _ hterm => hterm⟩
  | interrupt traps held =>
      exact ⟨⟨h.attached, h.asks, h.bows, h.tidy, h.leaving⟩, fun _ hterm => hterm⟩

/-- Once `terminate` is handed over to an engine that is not detached, it is terminated. -/
theorem terminated_of_forward {w w' : World} (h : w.Settled)
    (hstep : AnyStep w (some (.dispatch (some (.forward .terminate)))) w') :
    w'.engine.closed = some .terminated := by
  obtain ⟨⟨reports, hd⟩, hhead⟩ := dispatchStep?_of_anyStep hstep
  obtain ⟨rest, hagenda⟩ := List.head?_eq_some_iff.mp hhead
  obtain ⟨-, -, ⟨task, session, hperform, -, hengine⟩ | ⟨hnone, -⟩⟩ := dispatchStep?_frame hd
  · obtain ⟨others, hagenda', -⟩ := Session.perform?_cases hperform
    obtain ⟨rfl, -⟩ := List.cons.inj (hagenda.symm.trans hagenda')
    rw [hengine, if_pos h.attached]
    show w.engine.close.closed = _
    unfold Engine.close
    split
    · rfl
    · next c hclosed =>
        cases c with
        | terminated => exact hclosed
        | detached => exact absurd rfl (((h.leaving hclosed).task hperform).1.2 .terminate)
  · unfold Session.perform? at hnone
    rw [hagenda] at hnone
    cases hnone

/-- **What interpreters get to hear** from an engine that was given `terminate`. -/
structure Refuses (w : World) : Prop where
  /-- A call that comes in is refused. -/
  entering : ∀ j ∈ w.jobs, ∀ r, j.phase = some (.entering r) →
    j.advance? w.bridge = some (w.bridge, j.inPhase (.returned (.error .terminated)))
  /-- A call that waits without a decision is refused, and does not give up before that. -/
  waiting : ∀ j ∈ w.jobs, ∀ p, j.phase = some (.waiting p) →
    (∀ mode, w.engine.slots.get? j.thread ≠ some (some mode)) → j.giveUp? w.bridge = none ∧
      j.advance? w.bridge = some ({ w.bridge with engine := w.engine.dropSlot j.thread },
        j.inPhase (.returned (.error .terminated)))
  /-- Who was refused at a load or at a line runs no further statement. -/
  resigning : ∀ j ∈ w.jobs, ∀ point heap resume r, j.run = .ask point heap resume →
    point.request? = some r → j.phase = some (.returned (.error .terminated)) →
    ∃ run : Run JobResult, j.advance? w.bridge = some (w.bridge, { j with run, phase := none }) ∧
      run.Resigns heap .terminated

theorem Settled.refuses {w : World} (h : w.Settled) (hclosed : w.engine.closed = some .terminated) :
    w.Refuses where
  entering j hj r hphase := by
    refine advance_of_phase (h.asks j hj) hphase ?_
    have hdecide : w.bridge.engine.decide j.thread r = .refuse .terminated := by
      unfold Engine.decide
      rw [show w.bridge.engine.closed = _ from hclosed]
    rw [Phase.advance?, hdecide]
  waiting j hj p hphase hslot := by
    have hwake : w.bridge.engine.wakening? j.thread = some (.closed .terminated) :=
      Engine.wakening_of_closed hclosed hslot
    refine ⟨?_, advance_of_phase (h.asks j hj) hphase ?_⟩
    · cases hgive : j.giveUp? w.bridge with
      | none => rfl
      | some next =>
          obtain ⟨-, -, -, -, hnone, -⟩ := giveUp?_cases hgive
          cases hnone.symm.trans hwake
    · rw [Phase.advance?, hwake]
      rfl
  resigning j hj point heap resume r hrun hrequest hphase := by
    have hbows := h.bows j hj
    rw [hrun] at hbows
    have hfinal : Refusal.IsFinal .terminated := by
      intro milliseconds he
      cases he
    refine ⟨resume (.error .terminated), ?_, hbows.1 r .terminated hrequest hfinal⟩
    rw [Job.advance?, hrun]
    dsimp only
    rw [hphase]

/-- **A termination request is final.** Once `terminate` was handed to the engine of a session, whatever
anyone does after that, the engine refuses every call that comes in and every call that waits without a
decision, as long as `disconnect` is not handed to it. -/
theorem termination_is_final {settings : DebuggerSettings} {trace later : List (Option Act)}
    {w₀ w₁ w : World} (hpast : Execution AnyStep (create settings true) trace w₀)
    (hforward : AnyStep w₀ (some (.dispatch (some (.forward .terminate)))) w₁)
    (hlater : Execution AnyStep w₁ later w)
    (hattached : some (.dispatch (some (.forward .disconnect))) ∉ later) :
    w.engine.closed = some .terminated ∧ w.Refuses := by
  have hsettled : w₀.Settled :=
    hpast.state_invariant (settled_create settings) fun h hstep => (settled_anyStep h hstep).1
  have hstart := (settled_anyStep hsettled hforward).1
  obtain ⟨hw, hclosed⟩ := hlater.invariant
    (P := fun acts w => w.Settled ∧ (some (.dispatch (some (.forward .disconnect))) ∉ acts →
      w.engine.closed = some .terminated))
    ⟨hstart, fun _ => terminated_of_forward hsettled hforward⟩
    fun _ ih hstep => by
      obtain ⟨hnext, hkeeps⟩ := settled_anyStep ih.1 hstep
      refine ⟨hnext, fun hnot => ?_⟩
      rw [List.mem_append, List.mem_singleton, not_or] at hnot
      exact hkeeps (fun he => hnot.2 he.symm) (ih.2 hnot.1)
  exact ⟨hclosed hattached, hw.refuses (hclosed hattached)⟩

/-- A job that loads a script. -/
def loading : Job :=
  .ofCheckpoint ⟨1⟩ (.load { id := ⟨1⟩, title := "main", source := "print 1", resource := some "main" } 0)

/-- A world in which the call of a script that was loaded waits, and the control side has asked for the
end. -/
def quitting : World :=
  let started := (create {} true).withSession ((create {} true).session.notify .engineStarted).2
  let waiting := ((started.begin loading).settleFrom [] 6).1
  waiting.withSession (ControlCall.terminate.run waiting.session)

/-- The world in which the engine is about to learn of that. -/
def handing : World :=
  (quitting.settleFrom [] 8).1

theorem execution_handing : ∃ trace, Execution AnyStep (create {} true) trace handing := by
  have hstart := Execution.single (AnyStep.report (create {} true) .engineStarted)
  obtain ⟨acts, hwaiting, -⟩ := execution_anyStep_settleFrom
    (hstart.next (.begin (j := loading) 1 (.inl ⟨_, rfl⟩) (by decide))) 6
  obtain ⟨later, hhanding, -⟩ := execution_anyStep_settleFrom (hwaiting.next (.call _ .terminate)) 8
  exact ⟨_, hhanding⟩

/-- A call that waits when its engine is terminated is refused. -/
theorem termination_is_final_loading : ∃ w, Waits (phaseOf w.jobs ⟨1⟩) ∧
    AnyStep handing (some (.dispatch (some (.forward .terminate)))) w ∧
    w.engine.closed = some .terminated ∧ w.Refuses := by
  obtain ⟨trace, hpast⟩ := execution_handing
  obtain ⟨⟨w, reports⟩, hd⟩ := Option.isSome_iff_exists.mp
    (show handing.dispatchStep?.isSome = true by decide +kernel)
  have hforward : AnyStep handing (some (.dispatch (some (.forward .terminate)))) w := by
    have hhead : handing.session.worker.agenda.head? = some (.forward .terminate) := by decide +kernel
    rw [← hhead]
    exact .dispatch hd
  refine ⟨w, ?_, hforward, termination_is_final hpast hforward .start List.not_mem_nil⟩
  rw [(dispatchStep?_frame hd).2.1.phaseOf]
  exact ⟨_, rfl⟩

/-- A world in which the engine is about to be terminated, before any script is loaded. -/
def doomed : World :=
  (((create {} true).withSession (ControlCall.terminate.run (create {} true).session)).settleFrom [] 3).1

/-- **A termination that is taken back.** The engine was terminated, the control side detaches, and the
call that comes in after that is let through. -/
theorem termination_is_undone : ∃ trace w₁ later w,
    Execution AnyStep (create {} true) trace doomed ∧
    AnyStep doomed (some (.dispatch (some (.forward .terminate)))) w₁ ∧ w₁.jobs = [] ∧
    Execution AnyStep w₁ later w ∧ phaseOf w.jobs ⟨1⟩ = some (.returned (.ok ())) := by
  have hcall := Execution.single (AnyStep.call (create {} true) .terminate)
  obtain ⟨acts, hdoomed, -⟩ := execution_anyStep_settleFrom hcall 3
  have hhead : doomed.session.worker.agenda.head? = some (.forward .terminate) := by decide +kernel
  have hforward : AnyStep doomed (some (.dispatch doomed.session.worker.agenda.head?))
      (doomed.settleFrom [] 1).1 := .dispatch rfl
  rw [hhead] at hforward
  have hdisconnect := Execution.single (AnyStep.call (doomed.settleFrom [] 1).1 .disconnect)
  obtain ⟨later, hdetached, -⟩ := execution_anyStep_settleFrom hdisconnect 10
  have hbegun := hdetached.next (.begin (j := loading) 1 (.inl ⟨_, rfl⟩) (by decide +kernel))
  obtain ⟨last, hlast, -⟩ := execution_anyStep_settleFrom hbegun 2
  exact ⟨_, _, _, _, hdoomed, hforward, rfl, hlast, rfl⟩

end World

end Pausepoint
