import Pausepoint.Proofs.Session.Proceedings
import Pausepoint.Proofs.Session.Tells
import Pausepoint.Proofs.World.Wakeful

/-!
# Pausepoint.Proofs.World.Orderly

What holds of a world whatever its calls do.

`Wakeful` is about calls that never give up. `Orderly` asks nothing of calls, so that it holds in every
run. Its core are two facts about decisions on a thread:

* a thread is suspended by its own pauses alone (`Target.suspended_before_report`);
* from the moment a decision is dispatched until it has reached the gate and the engine, its thread is
  not suspended (`Session.Letting`).
-/

namespace Pausepoint

/-! ### What suspends a thread -/

namespace Target

variable {t : Target} {thread : ThreadId}

/-- Storing a version of a thread is no matter of the others. -/
theorem suspended_before_setThread (hr : t.registry.Exact) {id : ThreadId} {before next : DebugThread}
    (hbefore : t.thread? id = some before) (hid : next.id = before.id)
    (hself : id = thread → next.state = .suspended → before.state = .suspended)
    (h : (t.setThread next).stateOf thread = some .suspended) :
    t.stateOf thread = some .suspended := by
  have hthread : next.id = id := hid.trans (id_of_thread? hr.indexed hbefore)
  subst hthread
  have hm := moves_setThread hr.indexed next hbefore
  by_cases he : thread = next.id
  · subst he
    rw [hm.stateOf_self] at h
    rw [stateOf, hbefore, Option.map_some, hself rfl (Option.some.inj h)]
  · rwa [hm.stateOf_of_ne he] at h

theorem suspended_before_terminate {fault : Option Fault}
    (h : (t.terminate fault).2.stateOf thread = some .suspended) :
    t.stateOf thread = some .suspended := by
  unfold terminate at h
  split at h
  · exact h
  · obtain ⟨ended, hended, hstate⟩ := exists_thread_of_stateOf h
    have hget := Registry.get?_terminateAll t.registry thread
    rw [show t.registry.terminateAll.2.get? thread = some ended from hended] at hget
    obtain ⟨before, -, rfl⟩ := Option.map_eq_some_iff.mp hget.symm
    cases hstate

theorem suspended_before_scriptReady (hr : t.registry.Exact) (store : BreakpointStore) {id : ThreadId}
    (hne : id ≠ thread) (script : Snapshot) (root : Bool)
    (h : (t.scriptReady store id script root).2.stateOf thread = some .suspended) :
    t.stateOf thread = some .suspended := by
  have hcontact := Registry.get?_contact hr.indexed id thread
  rw [if_neg (Ne.symm hne)] at hcontact
  have hr' := Registry.exact_contact hr id
  have hset {before next : DebugThread}
      (hbefore : ({ t with registry := (t.registry.contact id).2 } : Target).thread? id = some before)
      (hid : next.id = before.id)
      (h : (({ t with registry := (t.registry.contact id).2 } : Target).setThread next).stateOf thread =
        some .suspended) : t.stateOf thread = some .suspended := by
    have hbefore' := suspended_before_setThread hr' hbefore hid (fun hsame => absurd hsame hne) h
    rwa [stateOf, thread?, hcontact] at hbefore'
  unfold scriptReady at h
  dsimp only at h
  split at h
  · next next htrans =>
      obtain ⟨before, hbefore, hsuspend⟩ := exists_of_transition htrans
      obtain ⟨hid, -⟩ := DebugThread.suspend_cases hsuspend
      split at h
      · split at h
        · next pushed hpush => exact hset hbefore ((DebugThread.pushFrame_cases hpush).1.trans hid) h
        · exact hset hbefore hid h
      · exact hset hbefore hid h
  · rwa [stateOf, thread?, hcontact] at h

theorem suspended_before_stackFrames (hr : t.registry.Exact) {id : ThreadId} {frames : List Frame}
    (h : (t.stackFrames id frames).2.stateOf thread = some .suspended) :
    t.stateOf thread = some .suspended := by
  unfold stackFrames at h
  split at h
  · next next htrans =>
      obtain ⟨before, hbefore, hframes⟩ := exists_of_transition htrans
      obtain ⟨hid, hstate⟩ := DebugThread.replaceFrames_cases hframes
      exact suspended_before_setThread hr hbefore hid (fun _ hsus => hstate ▸ hsus) h
  · exact h

theorem suspended_before_suspended (hr : t.registry.Exact) {id : ThreadId} (hne : id ≠ thread)
    {frames : List Frame} {reason : Reason}
    (h : (t.suspended id frames reason).2.stateOf thread = some .suspended) :
    t.stateOf thread = some .suspended := by
  unfold suspended at h
  split at h
  · next next htrans =>
      obtain ⟨before, hbefore, hsuspend⟩ := exists_of_transition htrans
      obtain ⟨hid, -⟩ := DebugThread.suspend_cases hsuspend
      dsimp only at h
      split at h
      · next replaced hframes =>
          exact suspended_before_setThread hr hbefore
            ((DebugThread.replaceFrames_cases hframes).1.trans hid) (fun hsame => absurd hsame hne) h
      · exact suspended_before_setThread hr hbefore hid (fun hsame => absurd hsame hne) h
  · exact h

theorem suspended_before_resumed (hr : t.registry.Exact) {id : ThreadId} {mode : Mode}
    (h : (t.resumed id mode).2.stateOf thread = some .suspended) :
    t.stateOf thread = some .suspended := by
  unfold resumed at h
  split at h
  · exact h
  · next before hbefore =>
      split at h
      · exact h
      · next next hnote =>
          have hruns : next.state.Runs := by
            unfold DebugThread.noteResumed at hnote
            split at hnote <;> cases hnote <;> exact mode.runs_resultingState
          exact suspended_before_setThread hr hbefore (DebugThread.noteResumed_cases hnote).1
            (fun _ hsus => absurd hsus hruns.ne_suspended) h

/-- **A report suspends its thread if it is a pause**, and no other thread. -/
theorem suspended_before_report (hr : t.registry.Exact) (store : BreakpointStore) {n : Notification}
    (h : (t.handleNotification store n).2.stateOf thread = some .suspended) :
    t.stateOf thread = some .suspended ∨ n.thread? = some thread ∧ n.isPause = true := by
  unfold handleNotification at h
  split at h
  · exact .inl h
  · exact .inl h
  · exact .inl h
  · exact .inl (suspended_before_terminate h)
  · exact .inl h
  · next id script root _ =>
      by_cases he : id = thread
      · exact .inr ⟨congrArg some he, rfl⟩
      · exact .inl (suspended_before_scriptReady hr store he script root h)
  · exact .inl (suspended_before_stackFrames hr h)
  · next id frames reason _ =>
      by_cases he : id = thread
      · exact .inr ⟨congrArg some he, rfl⟩
      · exact .inl (suspended_before_suspended hr he h)
  · exact .inl (suspended_before_resumed hr h)

/-- **A command suspends nobody**, and a decision leaves its thread not suspended. -/
theorem suspended_before_command (hr : t.registry.Exact) (hlive : t.isTerminated = false) {c : Command}
    (h : (t.handleCommand c).2.stateOf thread = some .suspended) :
    t.stateOf thread = some .suspended ∧ ∀ mode, c ≠ .resume thread mode := by
  cases c with
  | terminate | setBreakpoint =>
      simp only [handleCommand, hlive] at h
      exact ⟨h, fun _ => by simp⟩
  | disconnect =>
      simp only [handleCommand, hlive] at h
      exact ⟨suspended_before_terminate h, fun _ => by simp⟩
  | resume id mode =>
      by_cases hs : t.stateOf id = some .suspended
      · obtain ⟨next, hm, hnext, -⟩ := moves_of_resume hr.indexed hlive mode hs
        by_cases he : thread = id
        · subst he
          rw [hm.stateOf_self, hnext] at h
          exact absurd (Option.some.inj h) mode.runs_resultingState.ne_suspended
        · rw [hm.stateOf_of_ne he] at h
          refine ⟨h, fun other hc => ?_⟩
          injection hc with hid
          exact he hid.symm
      · rw [handleCommand_resume_of_ne mode hs] at h
        refine ⟨h, fun other hc => ?_⟩
        injection hc with hid
        exact hs (hid ▸ h)

end Target

/-! ### Decisions that were dispatched -/

/-- A task that lets a thread go on: the gate is told, or the engine. -/
def Task.LetsGo (thread : ThreadId) : Task → Prop
  | .release id | .forward (.resume id _) => id = thread
  | _ => False

namespace Session

/-- A decision on a thread was dispatched and has not reached the gate or the engine. -/
def Letting (s : Session) (thread : ThreadId) : Prop :=
  ∃ task ∈ s.worker.agenda, task.LetsGo thread

/-- A report lets nobody go on. -/
theorem not_letsGo_notificationTasks {n : Notification} {effects : Effects} {task : Task}
    (h : task ∈ notificationTasks n effects) (thread : ThreadId) : ¬ task.LetsGo thread := by
  simp only [notificationTasks, closing, List.mem_append, List.mem_map] at h
  rcases h with (⟨c, -, rfl⟩ | ⟨c, -, rfl⟩) | h
  · exact id
  · exact id
  · split at h
    · simp only [List.mem_cons, List.not_mem_nil, or_false] at h
      rcases h with rfl | rfl | rfl | rfl | rfl <;> exact id
    · cases h

/-- A command that is taken lets a thread go on if it is a decision on it, and finds it suspended. -/
theorem letsGo_tasksAfter {s : Session} {e : Event} {task : Task} {thread : ThreadId}
    (h : task ∈ s.tasksAfter e) (hlets : task.LetsGo thread) :
    ∃ mode, e = .command (.resume thread mode) ∧ s.target.stateOf thread = some .suspended ∧
      s.target.isTerminated = false := by
  cases e with
  | notification n => exact absurd hlets (not_letsGo_notificationTasks h thread)
  | command c =>
      have hplain {cs : List Callback} {ds : List Command} (hmem : task ∈ cs.map Task.callback ++ ds.map .followUp) :
          False := by
        rcases List.mem_append.mp hmem with hmem | hmem
        · obtain ⟨c, -, rfl⟩ := List.mem_map.mp hmem
          exact hlets
        · obtain ⟨c, -, rfl⟩ := List.mem_map.mp hmem
          exact hlets
      -- The tasks of a delivered command let a thread go only if it is a decision on it.
      have hresume : ∃ mode, c = .resume thread mode := by
        rw [tasksAfter, commandTasks] at h
        split at h
        · rw [List.append_assoc (releaseTasks c)] at h
          simp only [List.mem_append] at h
          rcases h with ((hrelease | heffects) | hcommand) | hclosing
          · cases c with
            | resume id mode =>
                obtain rfl := List.mem_singleton.mp hrelease
                exact ⟨mode, congrArg (Command.resume · mode) hlets⟩
            | terminate | disconnect =>
                obtain rfl := List.mem_singleton.mp hrelease
                exact hlets.elim
            | setBreakpoint => cases hrelease
          · exact (hplain (List.mem_append.mpr heffects)).elim
          · simp only [List.mem_cons, List.not_mem_nil, or_false] at hcommand
            rcases hcommand with rfl | rfl
            · exact hlets.elim
            · cases c with
              | resume id mode => exact ⟨mode, congrArg (Command.resume · mode) hlets⟩
              | terminate | disconnect | setBreakpoint => exact hlets.elim
          · split at hclosing
            · simp only [closing, List.mem_cons, List.not_mem_nil, or_false] at hclosing
              rcases hclosing with rfl | rfl | rfl | rfl | rfl <;> exact hlets.elim
            · cases hclosing
        · exact (hplain h).elim
      obtain ⟨mode, rfl⟩ := hresume
      -- Had the command been dropped, there would be no task.
      have hdrop (hsame : s.target.handleCommand (.resume thread mode) = ({}, s.target)) : False := by
        rw [tasksAfter, hsame] at h
        cases h
      refine ⟨mode, rfl, ?_, ?_⟩
      · exact Decidable.byContradiction fun hs => hdrop (Target.handleCommand_resume_of_ne mode hs)
      · cases hterm : s.target.isTerminated with
        | false => rfl
        | true => exact (hdrop (by rw [Target.handleCommand, if_pos hterm])).elim

/-- What a thread is let go on by was there before the last task. -/
theorem letting_perform {s s' : Session} {task : Task} (hs : s.perform? = some (task, s'))
    {thread : ThreadId} (h : s'.Letting thread) : s.Letting thread := by
  obtain ⟨rest, hagenda, rfl⟩ := perform?_cases hs
  obtain ⟨other, hmem, hlets⟩ := h
  rw [agenda_effect, agenda_withAgenda] at hmem
  exact ⟨other, by rw [hagenda]; exact List.mem_cons_of_mem _ hmem, hlets⟩

/-- Every event leaves the threads in order. -/
theorem exact_targetAfter {s : Session} (h : s.target.registry.Exact) (e : Event) :
    (s.targetAfter e).registry.Exact := by
  cases e with
  | notification n => exact (Target.tells_handleNotification h _ n).exact
  | command c => exact (Target.tells_handleCommand h c).exact

end Session

namespace World

/-! ### The invariant -/

/-- A session that is not over: nothing that is left to do ends it, queue and engine are open, and a
decision that was dispatched leaves its thread not suspended. -/
structure Lively (w : World) : Prop where
  mild : ∀ task ∈ w.session.worker.agenda, task.IsMild
  queue_open : w.session.queue.closed = false
  engine_open : w.engine.closed = none
  letting : ∀ thread, w.session.Letting thread → w.session.target.stateOf thread ≠ some .suspended

/-- **The invariant** of every world that nobody cancels or ends by a command. -/
structure Orderly (w : World) : Prop where
  calm : w.Calm
  exact : w.session.target.registry.Exact
  uncancelled : w.session.queue.cancelled = false
  /-- No thread has two jobs. -/
  distinct : (w.jobs.map Job.thread).Nodup
  asks : ∀ j ∈ w.jobs, j.Asks
  lively : w.session.target.state ≠ .terminated → w.Lively
  /-- A session that is over lets nobody go on. -/
  ended : w.session.target.state = .terminated → ∀ thread, ¬ w.session.Letting thread

theorem orderly_create (settings : DebuggerSettings) : (create settings true).Orderly where
  calm := ⟨rfl, rfl, rfl⟩
  exact := Registry.exact_empty
  uncancelled := rfl
  distinct := List.nodup_nil
  asks _ hj := absurd hj List.not_mem_nil
  lively _ := ⟨nofun, rfl, rfl, by rintro thread ⟨task, hmem, -⟩; cases hmem⟩
  ended h := by cases h

/-- Who lets someone go on belongs to a session that is not over. -/
theorem Orderly.lively_of_letting {w : World} (h : w.Orderly) {thread : ThreadId}
    (hlets : w.session.Letting thread) : w.Lively :=
  h.lively fun hover => h.ended hover thread hlets

/-! ### Moves -/

/-- Between two sessions no more happened than that the gate changed and reports came in. -/
structure Reported (s s' : Session) : Prop where
  target : s'.target = s.target
  worker : s'.worker = s.worker
  breakpoints : s'.breakpoints = s.breakpoints
  queue : ∃ ns : List Notification,
    s'.queue = { s.queue with events := s.queue.events ++ ns.map .notification }

theorem Reported.of_gate {s s' : Session} (ht : s'.target = s.target) (hw : s'.worker = s.worker)
    (hb : s'.breakpoints = s.breakpoints) (hq : s'.queue = s.queue) : Reported s s' :=
  ⟨ht, hw, hb, [], by simp [hq]⟩

theorem reported_notify (s : Session) (n : Notification) : Reported s (s.notify n).2 := by
  obtain ⟨ht, hw, hb, hq | hq⟩ := s.notify_frame n
  · exact .of_gate ht hw hb hq
  · exact ⟨ht, hw, hb, [n], hq⟩

/-- **A step of a call** reports at most, and leaves the engine as open as it was. -/
theorem reported_of_callStep {b b' : Bridge} {thread : ThreadId} {phase phase' : Option Phase}
    (h : CallStep b thread phase b' phase') :
    Reported b.session b'.session ∧ b'.engine.closed = b.engine.closed := by
  cases h with
  | announce | report | unreported | confirm | excuse => exact ⟨reported_notify _ _, rfl⟩
  | silent | enter | refuse | pass | pause | openSlot | closed | abandon | leave =>
      exact ⟨.of_gate rfl rfl rfl rfl, rfl⟩
  | @takeUp p mode => exact ⟨.of_gate rfl rfl rfl rfl, (takeUp_frame b.engine thread p mode).2.1⟩

namespace Orderly

variable {w w' : World}

/-- What a step of a job must show. -/
theorem advanced (h : w.Orderly) {b : Bridge} {before after : List Job} {j j' : Job}
    (hjobs : w.jobs = before ++ j :: after) (hthread : j'.thread = j.thread) (hasks : j'.Asks)
    (hreported : Reported w.session b.session) (hclosed : b.engine.closed = w.engine.closed) :
    (w.advanced b before j' after).Orderly := by
  have hb := bridge_advanced w b before j' after
  have hs : (w.advanced b before j' after).session = b.session := congrArg Bridge.session hb
  have he : (w.advanced b before j' after).engine = b.engine := congrArg Bridge.engine hb
  obtain ⟨ns, hq⟩ := hreported.queue
  have hletting (thread) : b.session.Letting thread = w.session.Letting thread := by
    unfold Session.Letting
    rw [hreported.worker]
  refine ⟨calm_advanced h.calm b before j' after, ?_, ?_, nodup_advanced hjobs hthread h.distinct,
    forall_jobs_advanced hjobs hasks h.asks, fun hlive => ?_, fun hover thread => ?_⟩
  · rw [hs, hreported.target]
    exact h.exact
  · rw [hs, hq]
    exact h.uncancelled
  · rw [hs, hreported.target] at hlive
    have hold := h.lively hlive
    refine ⟨?_, ?_, ?_, fun thread => ?_⟩
    · rw [hs, hreported.worker]
      exact hold.mild
    · rw [hs, hq]
      exact hold.queue_open
    · rw [he, hclosed]
      exact hold.engine_open
    · rw [hs, hletting, hreported.target]
      exact hold.letting thread
  · rw [hs, hreported.target] at hover
    rw [hs, hletting]
    exact h.ended hover thread

theorem begin (h : w.Orderly) {j : Job} (nextHeap : Nat) (hphase : j.phase = none) (hnew : j.thread ∉ w.jobs.map Job.thread) :
    (({ w with nextHeap } : World).begin j).Orderly := by
  have hb : (({ w with nextHeap } : World).begin j).bridge = w.bridge := bridge_begin _ j
  have hs : (({ w with nextHeap } : World).begin j).session = w.session := congrArg Bridge.session hb
  have he : (({ w with nextHeap } : World).begin j).engine = w.engine := congrArg Bridge.engine hb
  refine ⟨calm_begin (w := { w with nextHeap }) ⟨h.calm.attached, h.calm.traps, h.calm.held⟩ j,
    ?_, ?_, ?_, ?_, fun hlive => ?_, ?_⟩
  · rw [hs]; exact h.exact
  · rw [hs]; exact h.uncancelled
  · exact nodup_begin hnew h.distinct
  · exact forall_jobs_begin (asks_of_no_phase hphase) h.asks
  · rw [hs] at hlive
    obtain ⟨hmild, hqueue, hengine, hletting⟩ := h.lively hlive
    exact ⟨hs ▸ hmild, hs ▸ hqueue, he ▸ hengine, hs ▸ hletting⟩
  · rw [hs]; exact h.ended

theorem call (h : w.Orderly) {c : ControlCall} (hc : c ≠ .cancel) :
    (w.withSession (c.run w.session)).Orderly := by
  obtain ⟨cs, hcs⟩ := ControlCall.commanded w.session c hc
  have hreads := w.session.rereads_call c
  have hs : (w.withSession (c.run w.session)).session = c.run w.session := rfl
  have hletting (thread) : (c.run w.session).Letting thread = w.session.Letting thread := by
    unfold Session.Letting
    rw [hcs.worker]
  refine ⟨⟨h.calm.attached, h.calm.traps, h.calm.held⟩, hreads.exact h.exact, ?_, h.distinct, h.asks,
    fun hlive => ?_, fun hover thread => ?_⟩
  · rw [hs, hcs.queue]
    exact h.uncancelled
  · rw [hs, hreads.state] at hlive
    have hold := h.lively hlive
    refine ⟨?_, ?_, hold.engine_open, fun thread => ?_⟩
    · rw [hs, hcs.worker]
      exact hold.mild
    · rw [hs, hcs.queue]
      exact hold.queue_open
    · rw [hs, hletting, hreads.stateOf h.exact]
      exact hold.letting thread
  · rw [hs, hreads.state] at hover
    rw [hs, hletting]
    exact h.ended hover thread

theorem perform (h : w.Orderly) {task : Task} {session : Session} (hcalm : w'.Calm)
    (hjobs : SameCalls w.jobs w'.jobs) (hs : w.session.perform? = some (task, session))
    (hb : w'.bridge = { session, engine := effectOnEngine w.engine task }) : w'.Orderly := by
  have hs' : w'.session = session := congrArg Bridge.session hb
  have he' : w'.engine = effectOnEngine w.engine task := congrArg Bridge.engine hb
  obtain ⟨rest, hagenda, hsession⟩ := Session.perform?_cases hs
  have htarget : session.target = w.session.target := by
    rw [hsession]
    exact Session.target_effect _ task
  refine ⟨hcalm, ?_, ?_, ?_, hjobs.asks h.asks, fun hlive => ?_, fun hover thread hlets => ?_⟩
  · rw [hs', htarget]
    exact h.exact
  · rw [hs', hsession, Session.cancelled_effect]
    exact h.uncancelled
  · rw [hjobs.threads]
    exact h.distinct
  · rw [hs', htarget] at hlive
    have hold := h.lively hlive
    -- A session that is not over has only mild tasks, none of which closes anything.
    have hmild := hold.mild task (by rw [hagenda]; exact List.mem_cons_self)
    refine ⟨fun other hmem => ?_, ?_, ?_, fun thread hlets => ?_⟩
    · rw [hs', hsession, Session.agenda_effect, Session.agenda_withAgenda] at hmem
      exact hold.mild other (by rw [hagenda]; exact List.mem_cons_of_mem _ hmem)
    · rw [hs', hsession, Session.closed_effect _ (by rintro rfl; exact hmild)]
      exact hold.queue_open
    · rw [he']
      cases task with
      | forward c =>
          have hends := Command.IsMild.ends_nothing hmild
          exact (apply_frame w.engine hends).1.trans hold.engine_open
      | release | callback | command | followUp => exact hold.engine_open
      | releaseAll | lastCallback | closeQueue | closeGate | forwardClosed | announceClosed
      | finish => exact hmild.elim
    · rw [hs'] at hlets ⊢
      rw [htarget]
      exact hold.letting thread (Session.letting_perform hs hlets)
  · rw [hs', htarget] at hover
    rw [hs'] at hlets
    exact h.ended hover thread (Session.letting_perform hs hlets)

/-- The event that is taken ends nothing, unless it ends the target. -/
theorem mild_of_take (hends : ¬ Ends w.session) (hidle : w.session.worker.agenda = []) {e : Event}
    {rest : List Event} (hevents : w.session.queue.events = e :: rest)
    (hlive : (w.session.targetAfter e).state ≠ .terminated) : e.IsMild := by
  cases e with
  | notification n =>
      rintro rfl
      exact hlive (Target.state_handleNotification_engineTerminated _ _)
  | command c =>
      cases c with
      | resume | setBreakpoint => trivial
      | terminate => exact absurd ⟨hidle, .inl (by rw [hevents]; rfl)⟩ hends
      | disconnect => exact absurd ⟨hidle, .inr (by rw [hevents]; rfl)⟩ hends

theorem take (h : w.Orderly) {session : Session} (hcalm : w'.Calm) (hjobs : SameCalls w.jobs w'.jobs)
    (hs : w.session.take? = some session) (hends : ¬ Ends w.session)
    (hb : w'.bridge = { w.bridge with session }) : w'.Orderly := by
  have hs' : w'.session = session := congrArg Bridge.session hb
  have he' : w'.engine = w.engine := (congrArg Bridge.engine hb :)
  have hdistinct : (w'.jobs.map Job.thread).Nodup := by
    rw [hjobs.threads]
    exact h.distinct
  obtain ⟨hidle, ⟨e, rest, hevents, rfl⟩ | ⟨hclosing, rfl⟩⟩ := Session.take?_cases hs
  · have htarget : w'.session.target = w.session.targetAfter e := by
      rw [hs', Session.target_handle, Session.targetAfter_withEvents]
    have hagenda : w'.session.worker.agenda = w.session.tasksAfter e := by
      rw [hs', Session.agenda_handle, Session.tasksAfter_withEvents]
    have hqueue : w'.session.queue = { w.session.queue with events := rest } := by
      rw [hs', Session.queue_handle]
      rfl
    refine ⟨hcalm, ?_, ?_, hdistinct, hjobs.asks h.asks, fun hlive => ?_, ?_⟩
    · rw [htarget]
      exact Session.exact_targetAfter h.exact e
    · rw [hqueue]
      exact h.uncancelled
    · rw [htarget] at hlive
      -- A session that is not over after the event was not over before.
      have hbefore : w.session.target.state ≠ .terminated := fun hover =>
        hlive (by rw [Session.targetAfter_of_terminated hover, hover])
      have hold := h.lively hbefore
      refine ⟨?_, ?_, ?_, ?_⟩
      · rw [hagenda]
        exact w.session.mild_tasksAfter (mild_of_take hends hidle hevents hlive)
      · rw [hqueue]
        exact hold.queue_open
      · rw [he']
        exact hold.engine_open
      · rintro thread ⟨task, hmem, hlets⟩ hsus
        rw [hagenda] at hmem
        obtain ⟨mode, rfl, -, hterm⟩ := Session.letsGo_tasksAfter hmem hlets
        rw [htarget] at hsus
        exact (Target.suspended_before_command h.exact hterm hsus).2 mode rfl
    · rintro hover thread ⟨task, hmem, hlets⟩
      rw [hagenda] at hmem
      obtain ⟨mode, rfl, -, hterm⟩ := Session.letsGo_tasksAfter hmem hlets
      rw [htarget] at hover
      have hne : Command.resume thread mode ≠ .disconnect := nofun
      exact Target.state_handleCommand (by simpa [Target.isTerminated] using hterm) hne hover
  -- Without an event the dispatcher closes, and it does so only once the session is over.
  · have hover : w.session.target.state = .terminated := by
      refine Decidable.byContradiction fun hlive => ?_
      rcases hclosing with hcancelled | hclosed
      · cases h.uncancelled.symm.trans hcancelled
      · cases (h.lively hlive).queue_open.symm.trans hclosed
    refine ⟨hcalm, hs' ▸ h.exact, hs' ▸ h.uncancelled, hdistinct, hjobs.asks h.asks,
      fun hlive => absurd (hs' ▸ hover) hlive, ?_⟩
    rintro - thread ⟨task, hmem, hlets⟩
    rw [hs', Session.agenda_withAgenda] at hmem
    simp only [closing, List.mem_cons, List.not_mem_nil, or_false] at hmem
    rcases hmem with rfl | rfl | rfl | rfl | rfl <;> exact hlets

/-- **Every move keeps the invariant.** -/
theorem moves {act : Act} (h : w.Orderly) (hm : Moves w act w') : w'.Orderly := by
  cases hm with
  | dispatch hd hends =>
      obtain ⟨hcalm, hjobs, ⟨task, session, hs, hb⟩ | ⟨session, -, hs, hb⟩⟩ :=
        dispatchStep?_cases h.calm hd
      · exact h.perform hcalm hjobs hs hb
      · exact h.take hcalm hjobs hs hends hb
  | step hjobs hstep =>
      obtain ⟨hcall, hthread⟩ := callStep_of_job hstep
      obtain ⟨hreported, hclosed⟩ := reported_of_callStep hcall
      exact h.advanced hjobs hthread (asks_of_advance hstep) hreported hclosed
  | @giveUp b before after j j' hjobs hgive =>
      obtain ⟨p, milliseconds, hphase, -, -, rfl, rfl⟩ := giveUp?_cases hgive
      have hasks := h.asks j (by rw [hjobs]; simp)
      exact h.advanced hjobs rfl (fun _ => hasks (by rw [hphase]; rfl)) (.of_gate rfl rfl rfl rfl) rfl
  | begin nextHeap hphase hnew => exact h.begin nextHeap hphase hnew
  | call c hc => exact h.call hc

end Orderly

/-- **The invariant holds throughout.** -/
theorem orderly_of_execution {settings : DebuggerSettings} {trace : List Act} {w : World}
    (h : Execution Moves (create settings true) trace w) : w.Orderly :=
  h.state_invariant (orderly_create settings) Orderly.moves

end World

end Pausepoint
