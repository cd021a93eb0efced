import Pausepoint.Proofs.Session.Prospect
import Pausepoint.Proofs.World.Orderly
import Pausepoint.Proofs.World.Stage

/-!
# Pausepoint.Proofs.World.MoveOrEnd

What moveOrEnd while anything may end.

`Moves` leaves out the commands that end everything. `MoveOrEnd` has them too, so that a session may be over
at any time. What then still holds of every run is `World.Abiding`: until the session is over the queue is
open, nothing that is left to do closes it, detaches the engine, or follows a load but to add a breakpoint,
and no report about a thread comes before the start of the engine.

* `moveOrEnd_cases` — what one move of someone does to session and engine;
* `Session.Hears` — what steps of calls do to a session;
* `Abiding.of_perform`, `Abiding.of_take` — what was done by a session that is still not over;
* `Abiding.moveOrEnd` — every move keeps the invariant.
-/

namespace Pausepoint

namespace Session

/-! ### Sessions that hear reports -/

/-- What a step of a call does to a session. -/
inductive Hears (s : Session) : Session → Prop
  | nothing : Hears s s
  | report (n : Notification) : Hears s (s.notify n).2
  | abandon (thread : ThreadId) : Hears s (s.abandonPause thread).2

theorem Hears.of_eq {s s' : Session} (h : s' = s) : s.Hears s' := by
  rw [h]
  exact .nothing

theorem Hears.reported {s s' : Session} (h : s.Hears s') : World.Reported s s' := by
  cases h with
  | nothing => exact .of_gate rfl rfl rfl rfl
  | report n => exact World.reported_notify s n
  | abandon thread => exact .of_gate rfl rfl rfl rfl

end Session

theorem hears_of_callStep {b b' : Bridge} {thread : ThreadId} {phase phase' : Option Phase}
    (h : CallStep b thread phase b' phase') : b.session.Hears b'.session := by
  cases h with
  | announce | report | unreported | confirm | excuse => exact .report _
  | silent | enter | refuse | pass | pause | openSlot | takeUp | closed | leave => exact .nothing
  | abandon => exact .abandon thread

namespace World

/-! ### Moves -/

/-- One move of someone. Other than in `Moves` also a command is taken that ends everything. -/
inductive MoveOrEnd : World → Act → World → Prop
  | move {w w' : World} {act : Act} (h : Moves w act w') : MoveOrEnd w act w'
  | ending {w w' : World} {reports : List Report} (h : w.dispatchStep? = some (w', reports)) :
      MoveOrEnd w (.dispatch w.session.worker.agenda.head?) w'

/-- The call that a move is, if it is one. -/
def Act.call? : Act → Option ControlCall
  | .call c => some c
  | _ => none

/-- No step of a call touches the breakpoints of the engine. -/
theorem breakpoints_callStep {b b' : Bridge} {thread : ThreadId} {phase phase' : Option Phase}
    (h : CallStep b thread phase b' phase') : b'.engine.breakpoints = b.engine.breakpoints := by
  cases h with
  | @takeUp p mode => exact b.engine.breakpoints_takeUp thread p mode
  | announce | silent | enter | refuse | pass | pause | openSlot | report | unreported | closed | confirm
  | abandon | excuse | leave => rfl

/-- Reports are no commands. -/
theorem Reported.pipeline {s s' : Session} (h : Reported s s') : s'.pipeline = s.pipeline := by
  obtain ⟨ns, hq⟩ := h.queue
  have hnone : commandsOf (ns.map .notification) = [] := by
    simp [commandsOf, Event.command?, Function.comp_def]
  unfold Session.pipeline Session.forwards Session.following
  rw [h.worker, hq, commandsOf_append, hnone, List.append_nil]

/-- **What a move does**: a task, which the engine may see; the next event; a report, at most; or a
call. -/
theorem moveOrEnd_cases {w w' : World} {act : Act} (hc : w.Calm) (h : MoveOrEnd w act w') : w'.Calm ∧
    ((∃ task session, act = .dispatch (some task) ∧ w.session.perform? = some (task, session) ∧
        w'.bridge = { session, engine := effectOnEngine w.engine task }) ∨
      (∃ session, act = .dispatch none ∧ w.session.take? = some session ∧
        w'.bridge = { w.bridge with session }) ∨
      ((∀ task, act ≠ .dispatch task) ∧ w.session.Hears w'.session ∧
        w'.engine.breakpoints = w.engine.breakpoints) ∨
      ∃ c, c ≠ .cancel ∧ act = .call c ∧ w'.bridge = { w.bridge with session := c.run w.session }) := by
  -- The dispatcher does the same in both kinds of move.
  have hdispatch {reports : List Report} (hd : w.dispatchStep? = some (w', reports)) : w'.Calm ∧
      ((∃ task session, Act.dispatch w.session.worker.agenda.head? = .dispatch (some task) ∧
          w.session.perform? = some (task, session) ∧
          w'.bridge = { session, engine := effectOnEngine w.engine task }) ∨
        ∃ session, Act.dispatch w.session.worker.agenda.head? = .dispatch none ∧
          w.session.take? = some session ∧ w'.bridge = { w.bridge with session }) := by
    obtain ⟨hcalm, -, ⟨task, session, hs, hb⟩ | ⟨session, -, hs, hb⟩⟩ := dispatchStep?_cases hc hd
    · obtain ⟨rest, hagenda, -⟩ := Session.perform?_cases hs
      exact ⟨hcalm, .inl ⟨task, session, by rw [hagenda]; rfl, hs, hb⟩⟩
    · exact ⟨hcalm, .inr ⟨session, by rw [(Session.take?_cases hs).1]; rfl, hs, hb⟩⟩
  cases h with
  | ending hd =>
      obtain ⟨hcalm, hperform | htake⟩ := hdispatch hd
      · exact ⟨hcalm, .inl hperform⟩
      · exact ⟨hcalm, .inr (.inl htake)⟩
  | move hm =>
      cases hm with
      | dispatch hd hends =>
          obtain ⟨hcalm, hperform | htake⟩ := hdispatch hd
          · exact ⟨hcalm, .inl hperform⟩
          · exact ⟨hcalm, .inr (.inl htake)⟩
      | @step b before after j j' hjobs hstep =>
          obtain ⟨hcall, -⟩ := callStep_of_job hstep
          have hb := bridge_advanced w b before j' after
          refine ⟨calm_advanced hc b before j' after, .inr (.inr (.inl ⟨nofun, ?_, ?_⟩))⟩
          · rw [show (w.advanced b before j' after).session = b.session from congrArg Bridge.session hb]
            exact hears_of_callStep hcall
          · rw [show (w.advanced b before j' after).engine = b.engine from congrArg Bridge.engine hb]
            exact breakpoints_callStep hcall
      | @giveUp b before after j j' hjobs hgive =>
          obtain ⟨p, milliseconds, -, -, -, rfl, rfl⟩ := giveUp?_cases hgive
          have hb := bridge_advanced w
            { w.bridge with engine := (w.engine.dropSlot j.thread).dropStep j.thread } before
            (j.inPhase (.abandoning milliseconds)) after
          refine ⟨calm_advanced hc _ before _ after, .inr (.inr (.inl ⟨nofun, ?_, ?_⟩))⟩
          · exact .of_eq (congrArg (fun b => b.session) hb)
          · exact congrArg (fun b => b.engine.breakpoints) hb
      | @begin j nextHeap hphase hnew =>
          have hb : (({ w with nextHeap } : World).begin j).bridge = w.bridge := bridge_begin _ j
          refine ⟨calm_begin (w := { w with nextHeap }) ⟨hc.attached, hc.traps, hc.held⟩ j,
            .inr (.inr (.inl ⟨nofun, ?_, ?_⟩))⟩
          · exact .of_eq (congrArg (fun b => b.session) hb)
          · exact congrArg (fun b => b.engine.breakpoints) hb
      | call c hcancel =>
          exact ⟨⟨hc.attached, hc.traps, hc.held⟩, .inr (.inr (.inr ⟨c, hcancel, rfl, rfl⟩))⟩

end World

/-! ### Sessions that have not started -/

/-- Only the start of the engine starts a session. -/
theorem Target.notStarted_of_handleNotification {t : Target} {store : BreakpointStore}
    {n : Notification} (h : (t.handleNotification store n).2.state = .notStarted) :
    t.state = .notStarted ∧ n ≠ .engineStarted := by
  cases hs : t.state with
  | terminated =>
      rw [handleNotification_of_terminated hs] at h
      cases hs.symm.trans h
  | notStarted =>
      refine ⟨rfl, ?_⟩
      rintro rfl
      simp [handleNotification, hs] at h
  | running =>
      cases n with
      | engineTerminated =>
          cases (t.state_handleNotification_engineTerminated store).symm.trans h
      | engineStarted | scriptReady | stackFrames | suspended | resumed =>
          simp [handleNotification, hs, state_scriptReady, state_stackFrames, state_suspended,
            state_resumed] at h

theorem Target.notStarted_of_handleCommand {t : Target} {c : Command}
    (h : (t.handleCommand c).2.state = .notStarted) : t.state = .notStarted := by
  unfold handleCommand at h
  split at h
  · exact h
  · cases c with
    | resume id mode =>
        dsimp only at h
        split at h <;> exact h
    | terminate | setBreakpoint => exact h
    | disconnect => cases (t.state_terminate none).symm.trans h

namespace Session

/-- Before a session has started, no report about a thread waits, and the gate lets one in only behind the
start of the engine. -/
def Heralds (s : Session) : Prop :=
  s.target.state = .notStarted →
    Heralded s.queue.events ∧ (s.gate.phase = .started → .notification .engineStarted ∈ s.queue.events)

variable {s s' : Session}

theorem Heralds.hears (h : s.Heralds) (hopen : s.queue.closed = false) (hs : s.Hears s') :
    s'.Heralds := by
  cases hs with
  | nothing | abandon thread => exact h
  | report n =>
      intro hstate
      rw [(s.notify_frame n).1] at hstate
      obtain ⟨hherald, hstart⟩ := h hstate
      obtain ⟨cause, -, hn⟩ | ⟨gate, hgate, hn | ⟨hmem, hn⟩⟩ := notify_cases hopen n
      · rw [hn]
        exact ⟨hherald, hstart⟩
      · rw [hn]
        have hphase := (phase_of_admitted hgate
          (List.subset_append_left s.queue.events [.notification n]) (by simp)).1
        exact ⟨heralded_admitted hgate hherald hstart, hphase hstart⟩
      · rw [hn]
        exact ⟨hherald, (phase_of_admitted hgate (List.Subset.refl s.queue.events) hmem).1 hstart⟩

theorem Heralds.commanded (h : s.Heralds) {cs : List Command} (hcs : s.Commanded s' cs) :
    s'.Heralds := by
  intro hstate
  rw [hcs.target.state] at hstate
  obtain ⟨hherald, hstart⟩ := h hstate
  rw [hcs.gate, hcs.events]
  exact ⟨heralded_append hherald (.inr (heralded_commands cs)),
    fun hphase => List.mem_append_left _ (hstart hphase)⟩

theorem Heralds.perform (h : s.Heralds) {task : Task} (htask : task ≠ .closeQueue)
    (hs : s.perform? = some (task, s')) : s'.Heralds := by
  obtain ⟨rest, -, rfl⟩ := perform?_cases hs
  have hrest : (s.withAgenda rest).Heralds := h
  cases task with
  | followUp c =>
      obtain ⟨cs, -, hcs, -⟩ := (s.withAgenda rest).commanded_submit c
      exact hrest.commanded hcs
  | closeQueue => exact absurd rfl htask
  | release | releaseAll | callback | command | forward | lastCallback | closeGate
  | forwardClosed | announceClosed | finish => exact hrest

theorem Heralds.handle (h : s.Heralds) {e : Event} {rest : List Event}
    (hevents : s.queue.events = e :: rest) : ((s.withEvents rest).handle e).Heralds := by
  intro hstate
  rw [target_handle, targetAfter_withEvents] at hstate
  cases e with
  | notification n =>
      obtain ⟨hbefore, hne⟩ := Target.notStarted_of_handleNotification hstate
      obtain ⟨hherald, hstart⟩ := h hbefore
      rw [hevents] at hherald hstart
      refine ⟨(heralded_cons hne hherald).2, fun hphase => ?_⟩
      exact (List.mem_cons.mp (hstart hphase)).resolve_left (by simpa using hne.symm)
  | command c =>
      obtain ⟨hherald, hstart⟩ := h (Target.notStarted_of_handleCommand hstate)
      rw [hevents] at hherald hstart
      exact ⟨hherald, fun hphase => (List.mem_cons.mp (hstart hphase)).resolve_left nofun⟩

/-- **A report about a thread** is not in front before the session has started. -/
theorem Heralds.started (h : s.Heralds) {n : Notification} {rest : List Event}
    (hevents : s.queue.events = .notification n :: rest) {thread : ThreadId}
    (hthread : n.thread? = some thread) : s.target.state ≠ .notStarted := by
  intro hstate
  have hherald := (h hstate).1
  rw [hevents] at hherald
  exact not_heralded hthread rest hherald

end Session

/-! ### Sessions that are not over -/

/-- A task that neither closes the queue nor detaches the engine. What follows an event takes no
breakpoint away. -/
def Task.Abides : Task → Prop
  | .closeQueue | .forward .disconnect | .followUp (.setBreakpoint _ _ .remove) => False
  | _ => True

namespace Session

/-- **An event that does not end the session** leaves such tasks. -/
theorem abides_tasksAfter {s : Session} (hlive : s.target.state ≠ .terminated)
    (hfiled : s.breakpoints.Filed) {e : Event} (hafter : (s.targetAfter e).state ≠ .terminated) :
    ∀ task ∈ s.tasksAfter e, task.Abides := by
  -- Callbacks and follow-ups abide, as long as no follow-up takes a breakpoint away.
  have hplain (callbacks : List Callback) {followUps : List Command}
      (hadds : ∀ id b, .setBreakpoint id b .remove ∉ followUps) {task : Task}
      (h : task ∈ callbacks.map Task.callback ++ followUps.map .followUp) : task.Abides := by
    rcases List.mem_append.mp h with h | h
    · obtain ⟨c, -, rfl⟩ := List.mem_map.mp h
      trivial
    · obtain ⟨c, hc, rfl⟩ := List.mem_map.mp h
      cases c with
      | resume | terminate | disconnect => trivial
      | setBreakpoint id b action =>
          cases action with
          | add => trivial
          | remove => exact hadds id b hc
  intro task htask
  cases e with
  | notification n =>
      have hne : n ≠ .engineTerminated := by
        rintro rfl
        exact hafter (Target.state_handleNotification_engineTerminated _ _)
      rw [tasksAfter, notificationTasks, if_neg hne, List.append_nil] at htask
      exact hplain _ (fun id b hmem => by cases (mem_followUps hfiled hmem).1) htask
  | command c =>
      have hnone (id : ScriptId) (b : Breakpoint) :
          .setBreakpoint id b .remove ∉ (s.target.handleCommand c).1.followUps := by
        rw [Target.followUps_handleCommand]
        exact List.not_mem_nil
      have hne : c ≠ .disconnect := by
        rintro rfl
        exact hafter (Target.state_handleCommand_disconnect hlive)
      rw [tasksAfter, commandTasks, if_neg hne, List.append_nil] at htask
      split at htask
      · rw [List.append_assoc (releaseTasks c), List.append_assoc] at htask
        rcases List.mem_append.mp htask with hrelease | htask
        · cases c with
          | resume | terminate => rw [List.mem_singleton.mp hrelease]; trivial
          | disconnect => exact absurd rfl hne
          | setBreakpoint => cases hrelease
        · rcases List.mem_append.mp htask with heffects | htask
          · exact hplain _ hnone heffects
          · simp only [List.mem_cons, List.not_mem_nil, or_false] at htask
            rcases htask with rfl | rfl
            · trivial
            · cases c with
              | resume | terminate | setBreakpoint => trivial
              | disconnect => exact absurd rfl hne
      · exact hplain _ hnone htask

end Session

namespace World

/-- The engine gets what a task passes on. The marker, which it does not get, is for no script that has
one of the usual numbers. -/
theorem breakpointsOf_effect (e : Engine) {task : Task} (h : task.Abides) {id : ScriptId}
    (hid : id.number < 18446744073709551616) :
    (effectOnEngine e task).breakpointsOf id =
      revised id task.forwarded?.toList (e.breakpointsOf id) := by
  cases task with
  | forwardClosed =>
      show e.close.breakpointsOf id = e.breakpointsOf id
      unfold Engine.close
      split <;> rfl
  | forward c =>
      show (if c = marker then e else e.apply c).breakpointsOf id = c.revise id (e.breakpointsOf id)
      by_cases hc : c = marker
      · subst hc
        rw [if_pos rfl, marker, Command.revise, if_neg]
        rintro rfl
        exact Nat.lt_irrefl _ hid
      · rw [if_neg hc]
        cases c with
        | resume thread mode =>
            unfold Engine.apply
            dsimp only
            split <;> rfl
        | terminate =>
            show e.close.breakpointsOf id = e.breakpointsOf id
            unfold Engine.close
            split <;> rfl
        | disconnect => exact h.elim
        | setBreakpoint script b action =>
            rw [Command.revise, Engine.breakpointsOf, Engine.apply, Table.get?_insert]
            by_cases hscript : script = id
            · rw [if_pos hscript.symm, if_pos hscript, hscript]
              rfl
            · rw [if_neg (Ne.symm hscript), if_neg hscript]
              rfl
  | release | releaseAll | callback | followUp | command | lastCallback | closeQueue | closeGate
  | announceClosed | finish => rfl

/-! ### The invariant of all runs -/

/-- **The invariant** of a world that keeps duplicates and that nobody cancels. -/
structure Abiding (w : World) : Prop where
  calm : w.Calm
  exact : w.session.target.registry.Exact
  plain : w.session.queue.dedupe = false
  uncancelled : w.session.queue.cancelled = false
  filed : w.session.breakpoints.Filed
  heralds : w.session.Heralds
  live : w.session.target.state ≠ .terminated →
    w.session.queue.closed = false ∧ ∀ task ∈ w.session.worker.agenda, task.Abides

theorem abiding_create {settings : DebuggerSettings} (hplain : settings.dedupeQueuedEvents = false) :
    (create settings true).Abiding where
  calm := ⟨rfl, rfl, rfl⟩
  exact := Registry.exact_empty
  plain := hplain
  uncancelled := rfl
  filed := BreakpointStore.filed_empty
  heralds _ := ⟨trivial, fun hphase => by cases hphase⟩
  live _ := ⟨rfl, by rintro task hmem; cases hmem⟩

namespace Abiding

variable {w w' : World}

/-- A task after which the session is not over was left by an open one. -/
theorem of_perform (h : w.Abiding) {task : Task} {session : Session}
    (hs : w.session.perform? = some (task, session)) (hlive : session.target.state ≠ .terminated) :
    w.session.target.state ≠ .terminated ∧ w.session.queue.closed = false ∧ task.Abides := by
  obtain ⟨rest, hagenda, rfl⟩ := Session.perform?_cases hs
  rw [Session.target_effect] at hlive
  obtain ⟨hopen, habides⟩ := h.live hlive
  exact ⟨hlive, hopen, habides task (by rw [hagenda]; exact List.mem_cons_self)⟩

/-- Only a session that is over finds its queue closed. -/
theorem over_of_closed (h : w.Abiding)
    (hclosing : w.session.queue.cancelled = true ∨ w.session.queue.closed = true) :
    w.session.target.state = .terminated := by
  refine Decidable.byContradiction fun hlive => ?_
  rcases hclosing with hcancelled | hclosed
  · cases h.uncancelled.symm.trans hcancelled
  · cases (h.live hlive).1.symm.trans hclosed

/-- What a session that is not over takes is an event. -/
theorem of_take (h : w.Abiding) {session : Session} (hs : w.session.take? = some session)
    (hlive : session.target.state ≠ .terminated) :
    w.session.target.state ≠ .terminated ∧ w.session.worker.agenda = [] ∧
      ∃ e rest, w.session.queue.events = e :: rest ∧ session = (w.session.withEvents rest).handle e := by
  obtain ⟨hidle, ⟨e, rest, hevents, rfl⟩ | ⟨hclosing, rfl⟩⟩ := Session.take?_cases hs
  · refine ⟨fun hover => hlive ?_, hidle, e, rest, hevents, rfl⟩
    rw [Session.target_handle, Session.targetAfter_withEvents, Session.targetAfter_of_terminated hover]
    exact hover
  · exact absurd (h.over_of_closed hclosing) hlive

theorem perform (h : w.Abiding) {task : Task} {session : Session} (hcalm : w'.Calm)
    (hs : w.session.perform? = some (task, session)) (hs' : w'.session = session) : w'.Abiding := by
  obtain ⟨rest, hagenda, hsession⟩ := Session.perform?_cases hs
  rw [hsession] at hs'
  have htarget : w'.session.target = w.session.target := by
    rw [hs', Session.target_effect]
    rfl
  have habides (hlive : w.session.target.state ≠ .terminated) :
      w.session.queue.closed = false ∧ task.Abides ∧ ∀ other ∈ rest, other.Abides := by
    obtain ⟨hopen, habides⟩ := h.live hlive
    rw [hagenda] at habides
    exact ⟨hopen, List.forall_mem_cons.mp habides⟩
  refine ⟨hcalm, htarget ▸ h.exact, ?_, ?_, ?_, fun hstate => ?_, fun hlive => ?_⟩
  · rw [hs', Session.dedupe_effect]
    exact h.plain
  · rw [hs', Session.cancelled_effect]
    exact h.uncancelled
  · rw [hs', Session.breakpoints_effect]
    exact h.filed
  · -- To close the queue would discard a start that waits.
    obtain ⟨-, htask, -⟩ := habides (by rw [← htarget, hstate]; decide)
    have hheralds := h.heralds.perform (by rintro rfl; exact htask) hs
    rw [hsession, ← hs'] at hheralds
    exact hheralds hstate
  · rw [htarget] at hlive
    obtain ⟨hopen, htask, hrest⟩ := habides hlive
    rw [hs', Session.agenda_effect]
    refine ⟨?_, hrest⟩
    rw [Session.closed_effect _ (by rintro rfl; exact htask)]
    exact hopen

/-- The event that is taken is handled. -/
theorem handle (h : w.Abiding) {e : Event} {rest : List Event} (hcalm : w'.Calm)
    (hevents : w.session.queue.events = e :: rest)
    (hs' : w'.session = (w.session.withEvents rest).handle e) : w'.Abiding := by
  have hheralds := h.heralds.handle hevents
  rw [← hs'] at hheralds
  rw [Session.handle_eq, Session.targetAfter_withEvents, Session.tasksAfter_withEvents] at hs'
  refine ⟨hcalm, ?_, ?_, ?_, ?_, hheralds, fun hlive => ?_⟩
  · rw [hs']
    exact Session.exact_targetAfter h.exact e
  · rw [hs']
    exact h.plain
  · rw [hs']
    exact h.uncancelled
  · rw [hs']
    exact h.filed
  · rw [hs'] at hlive ⊢
    have hbefore : w.session.target.state ≠ .terminated := fun hover =>
      hlive ((congrArg Target.state (Session.targetAfter_of_terminated hover e)).trans hover)
    exact ⟨(h.live hbefore).1, Session.abides_tasksAfter hbefore h.filed hlive⟩

/-- The dispatcher, which has nothing left to do, takes an event or finds the queue closed. -/
theorem take (h : w.Abiding) {session : Session} (hcalm : w'.Calm)
    (hs : w.session.take? = some session) (hs' : w'.session = session) : w'.Abiding := by
  obtain ⟨-, ⟨e, rest, hevents, rfl⟩ | ⟨hclosing, rfl⟩⟩ := Session.take?_cases hs
  · exact h.handle hcalm hevents hs'
  · refine ⟨hcalm, hs' ▸ h.exact, hs' ▸ h.plain, hs' ▸ h.uncancelled, hs' ▸ h.filed,
      hs' ▸ h.heralds, fun hlive => ?_⟩
    rw [hs'] at hlive
    exact absurd (h.over_of_closed hclosing) hlive

theorem hears (h : w.Abiding) (hcalm : w'.Calm) (hears : w.session.Hears w'.session) :
    w'.Abiding := by
  have hr := hears.reported
  obtain ⟨ns, hq⟩ := hr.queue
  refine ⟨hcalm, hr.target ▸ h.exact, ?_, ?_, hr.breakpoints ▸ h.filed, ?_, fun hlive => ?_⟩
  · rw [hq]
    exact h.plain
  · rw [hq]
    exact h.uncancelled
  · intro hstate
    have hlive : w.session.target.state ≠ .terminated := by
      rw [← hr.target, hstate]
      decide
    exact h.heralds.hears (h.live hlive).1 hears hstate
  · rw [hr.target] at hlive
    rw [hr.worker, hq]
    exact h.live hlive

theorem call (h : w.Abiding) {c : ControlCall} (hcalm : w'.Calm) (hc : c ≠ .cancel)
    (hs' : w'.session = c.run w.session) : w'.Abiding := by
  obtain ⟨cs, hcs⟩ := ControlCall.commanded w.session c hc
  have hreads := w.session.rereads_call c
  refine ⟨hcalm, ?_, ?_, ?_, ?_, hs' ▸ h.heralds.commanded hcs, fun hlive => ?_⟩
  · rw [hs']
    exact hreads.exact h.exact
  · rw [hs', hcs.queue]
    exact h.plain
  · rw [hs', hcs.queue]
    exact h.uncancelled
  · rw [hs']
    exact Session.filed_call h.filed c
  · rw [hs', hreads.state] at hlive
    rw [hs', hcs.worker, hcs.queue]
    exact h.live hlive

/-- **Every move keeps the invariant.** -/
theorem moveOrEnd {act : Act} (h : w.Abiding) (hm : MoveOrEnd w act w') : w'.Abiding := by
  obtain ⟨hcalm, ⟨task, session, -, hs, hb⟩ | ⟨session, -, hs, hb⟩ | ⟨-, hears, -⟩ | ⟨c, hc, -, hb⟩⟩ :=
    moveOrEnd_cases h.calm hm
  · exact h.perform hcalm hs (congrArg Bridge.session hb)
  · exact h.take hcalm hs (congrArg Bridge.session hb)
  · exact h.hears hcalm hears
  · exact h.call hcalm hc (congrArg Bridge.session hb)

end Abiding

end World

end Pausepoint
