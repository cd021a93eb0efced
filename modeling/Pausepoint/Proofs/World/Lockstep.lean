import Pausepoint.Proofs.World.SessionPair

/-!
# Pausepoint.Proofs.World.Lockstep

Dropping duplicates loses no update.

A queue may drop an event because an equal one waits anywhere in it. That is harmless if nothing between the
two undoes the first one; else the update is lost for good.

* `SessionPair.Paired` — what two sessions have in common of which one drops duplicates: everything that shows;
* `SessionPair.dedupe_loses_no_update` — the main result, for all runs in which what is dropped is covered;
* `SessionPair.dedupe_loses_breakpoint` — a run in which it is not, and a breakpoint is missing at the end.

Proof shape: one lemma for each kind of step (`Paired.call`, `Paired.perform_aside`, `Paired.take_aside`,
`Paired.perform`, `Paired.take`, `Paired.take_end`), of which those that submit something all come down to
`Paired.offered`; then `Paired.step`, and from it the whole run.
-/

namespace Pausepoint

namespace SessionPair

variable {w w' : SessionPair}

/-! ### What the two sessions have in common -/

/-- **The invariant**: the two sessions differ in nothing that shows. While the plain dispatcher is at an
event that the frugal queue has dropped, nothing that it is about to do makes a difference. -/
structure Paired (w : SessionPair) : Prop where
  queue : EventQueue.Paired w.waiting w.plain.session.queue w.frugal.session.queue
  gate : w.frugal.session.gate = w.plain.session.gate
  breakpoints : w.frugal.session.breakpoints = w.plain.session.breakpoints
  exit : w.frugal.session.worker.exit = w.plain.session.worker.exit
  target : w.plain.session.target.Matches w.frugal.session.target
  engine : w.plain.engine.SameBreakpoints w.frugal.engine
  agenda : w.frugal.session.worker.agenda = w.plain.session.worker.agenda ∨
    w.frugal.session.worker.agenda = [] ∧
      ∀ task ∈ w.plain.session.worker.agenda, task.IsSpare w.plain.engine
  vouched : w.frugal.session.IsLive → w.frugal.VouchesAll w.waiting

theorem paired_start (settings : DebuggerSettings) : (start settings).Paired where
  queue := ⟨rfl, rfl, rfl, rfl, rfl, rfl⟩
  gate := rfl
  breakpoints := rfl
  exit := rfl
  target := ⟨rfl, rfl, rfl, fun _ => .none⟩
  engine := .refl _
  agenda := .inl rfl
  vouched _ := Bridge.vouchesAll_nil _

namespace Paired

theorem plain_self (h : w.Paired) : w.plain.session.target.Matches w.plain.session.target :=
  h.target.trans h.target.symm

theorem frugal_self (h : w.Paired) : w.frugal.session.target.Matches w.frugal.session.target :=
  h.target.symm.trans h.target

/-- Nothing is to be restated as long as nothing is submitted or taken. -/
theorem restated_events (h : w.Paired) : restated w.waiting w.plain.session.queue.events = w.waiting := by
  rw [h.queue.events, restated_same]

/-- **Both sessions are offered some events.** What the frugal queue drops of them was covered. -/
theorem offered (h : w.Paired) (gate : Gate) (store : BreakpointStore) {es : List Event}
    (hes : es.Pairwise fun x _ => x.isPause = false)
    (hnew : w.frugal.session.IsLive → ∀ e ∈ es, e ≠ .command .terminate ∧ w.frugal.session.Unpaused e)
    (hcovered : (w.after (w.plain.offered gate store es) (w.frugal.offered gate store es)).Covered) :
    (w.after (w.plain.offered gate store es) (w.frugal.offered gate store es)).Paired := by
  obtain ⟨hmarks, hqueue⟩ := h.queue.restated_offers es
  refine ⟨hqueue, rfl, rfl, h.exit, h.target, h.engine, h.agenda, fun hl => ?_⟩
  have hlive : w.frugal.session.IsLive := by
    refine ⟨hl.target, ?_⟩
    rw [← w.frugal.session.queue.cancelled_offers es]
    exact hl.queue
  suffices hall : w.frugal.VouchesAll (restated w.waiting (w.plain.session.queue.offers es).events) from
    hall.congr h.frugal_self (.refl _)
  change AllCovered (restated w.waiting (w.plain.session.queue.offers es).events) at hcovered
  rw [hmarks] at hcovered ⊢
  cases hclosed : w.plain.session.queue.closed with
  | true => exact h.vouched hlive
  | false =>
      rw [hclosed] at hcovered
      refine (h.vouched hlive).sifted hes (fun e he => ?_) hcovered
      obtain ⟨hlasting, hunpaused⟩ := hnew hlive e he
      exact ⟨hlasting, fun x hx => hunpaused x (h.queue.kept ▸ hx)⟩

/-- Nothing was offered. -/
theorem unchanged (h : w.Paired) (hcovered : (w.after w.plain w.frugal).Covered) :
    (w.after w.plain w.frugal).Paired := by
  have hf : w.frugal = w.frugal.offered w.plain.session.gate w.plain.session.breakpoints [] := by
    rw [← h.gate, ← h.breakpoints]
    rfl
  rw [hf] at hcovered ⊢
  exact h.offered _ _ .nil (fun _ _ he => absurd he List.not_mem_nil) hcovered

/-! ### Calls -/

/-- A report is admitted in both sessions, or refused in both. -/
theorem report (h : w.Paired) (ha : w.Arisen) {n : Notification}
    (hcovered : (w.call (.report n)).Covered) : (w.call (.report n)).Paired := by
  unfold SessionPair.call Bridge.call Call.run at hcovered ⊢
  dsimp only at hcovered ⊢
  cases haccept : w.plain.session.gate.accept n with
  | error cause =>
      rw [Session.notify_of_error haccept, Session.notify_of_error (h.gate ▸ haccept)] at hcovered ⊢
      exact h.unchanged hcovered
  | ok gate =>
      have haccept' : w.frugal.session.gate.accept n = .ok gate := h.gate ▸ haccept
      rw [Session.notify_of_ok haccept, Session.notify_of_ok haccept', h.queue.closed, h.breakpoints]
        at hcovered ⊢
      refine h.offered _ w.plain.session.breakpoints (List.pairwise_singleton _ _) (fun hl e he => ?_) hcovered
      obtain rfl := List.mem_singleton.mp he
      exact ⟨by simp, (ha.onward.concord hl).unpaused_of_accept haccept'⟩

/-- What the control side asks for depends on what is shown. -/
theorem submits (h : w.Paired) (ha : w.Arisen) {c : ControlCall} (hc : c.Submits)
    (hcovered : (w.call (.control c)).Covered) : (w.call (.control c)).Paired := by
  unfold SessionPair.call Bridge.call Call.run at hcovered ⊢
  dsimp only at hcovered ⊢
  rw [ControlCall.run_eq _ hc, ControlCall.run_eq _ hc, h.breakpoints, h.gate,
    ControlCall.orders_of_matches h.target h.breakpoints hc] at hcovered ⊢
  refine h.offered w.plain.session.gate _ ?_ (fun hl e he => ?_) hcovered
  · refine List.pairwise_of_forall_mem_list fun x hx y _ => ?_
    obtain ⟨d, -, rfl⟩ := List.mem_map.mp hx
    rfl
  · obtain ⟨d, hd, rfl⟩ := List.mem_map.mp he
    obtain ⟨trace, hlived⟩ := ha.frugal
    rw [← ControlCall.orders_of_matches h.target h.breakpoints hc] at hd
    obtain ⟨hlasting, hsuspended⟩ := ControlCall.of_mem_orders hlived.exact hc hd
    exact ⟨by simpa using hlasting, (ha.onward.concord hl).unpaused_of_order hsuspended⟩

/-- Reading variables is not seen by anyone else. -/
theorem readVariables (h : w.Paired) (ha : w.Arisen) (bindings : ScopeId → Entries) (id : ThreadId)
    (slot : Nat) : (w.call (.control (.readVariables bindings id slot))).Paired := by
  obtain ⟨trace, hplain⟩ := ha.plain
  obtain ⟨trace', hfrugal⟩ := ha.frugal
  have hp := Session.matches_readVariables hplain.exact.indexed h.plain_self bindings id slot
  have hf := Session.matches_readVariables hfrugal.exact.indexed h.frugal_self bindings id slot
  have hframe (s : Session) : (s.readVariables bindings id slot).2 =
      { s with target := (s.readVariables bindings id slot).2.target } := by
    unfold Session.readVariables
    split <;> rfl
  unfold SessionPair.call Bridge.call Call.run ControlCall.run
  dsimp only
  rw [hframe w.plain.session, hframe w.frugal.session]
  unfold after
  dsimp only
  rw [h.restated_events]
  exact
    { queue := h.queue, gate := h.gate, breakpoints := h.breakpoints, exit := h.exit
      target := (hp.symm.trans h.target).trans hf, engine := h.engine, agenda := h.agenda
      vouched := fun hl => (h.vouched ⟨fun he => hl.target (hf.state.trans he), hl.queue⟩).congr hf (.refl _) }

/-- A queue that is cancelled hands nothing out. -/
theorem cancel (h : w.Paired) : (w.call (.control .cancel)).Paired := by
  have hqueue := h.queue.cancel
  have hmarks : restated w.waiting w.plain.session.queue.cancel.events = w.waiting := by
    rw [hqueue.events, restated_same]
  have hover (q : EventQueue) : q.cancel.cancelled = true := by
    unfold EventQueue.cancel
    split
    · assumption
    · rfl
  refine ⟨?_, h.gate, h.breakpoints, h.exit, h.target, h.engine, h.agenda, fun hl => ?_⟩
  · show EventQueue.Paired (restated w.waiting w.plain.session.queue.cancel.events) _ _
    rw [hmarks]
    exact hqueue
  · cases hl.queue.symm.trans (hover w.frugal.session.queue)

/-- **A call is made in both sessions.** -/
theorem call (h : w.Paired) (ha : w.Arisen) {c : Call} (hc : c.IsPatient)
    (hcovered : (w.call c).Covered) : (w.call c).Paired := by
  cases c with
  | report n => exact h.report ha hcovered
  | abandonPause id => exact hc.elim
  | control c =>
      cases c with
      | terminate => exact hc.elim
      | readVariables bindings id slot => exact h.readVariables ha bindings id slot
      | cancel => exact h.cancel
      | resume | resumeAll | disconnect | addBreakpoint | removeBreakpoint | setBreakpoint =>
          exact h.submits ha trivial hcovered

/-! ### Dispatching what the frugal queue has dropped -/

/-- What makes no difference is done. -/
theorem perform_aside (h : w.Paired) {task : Task} {rest : List Task}
    (hagenda : w.plain.session.worker.agenda = task :: rest) (hidle : w.frugal.session.worker.agenda = []) :
    (w.after ⟨(w.plain.session.withAgenda rest).effect task, World.effectOnEngine w.plain.engine task⟩
      w.frugal).Paired := by
  have hspare : ∀ task ∈ w.plain.session.worker.agenda, task.IsSpare w.plain.engine := by
    obtain hsame | ⟨-, hspare⟩ := h.agenda
    · rw [hidle, hagenda] at hsame
      cases hsame
    · exact hspare
  rw [hagenda] at hspare
  have hengine : w.plain.engine.SameBreakpoints (World.effectOnEngine w.plain.engine task) :=
    (hspare task List.mem_cons_self).sameBreakpoints
  have heffect : (w.plain.session.withAgenda rest).effect task = w.plain.session.withAgenda rest :=
    (hspare task List.mem_cons_self).effect _
  rw [heffect]
  unfold after
  dsimp only [Session.withAgenda]
  rw [h.restated_events]
  exact
    { queue := h.queue, gate := h.gate, breakpoints := h.breakpoints, exit := h.exit
      target := h.target, engine := hengine.symm.trans h.engine
      agenda := .inr ⟨hidle, fun other hother =>
        (hspare other (List.mem_cons_of_mem _ hother)).congr hengine⟩
      vouched := h.vouched }

/-- **What the frugal queue has dropped is taken**: the plain session shows the same afterwards. -/
theorem take_aside (h : w.Paired) (ha : w.Arisen) {e : Event} {rest : List (Event × Bool)}
    (hwaiting : w.waiting = (e, true) :: rest) (hidle : w.frugal.session.worker.agenda = [])
    (hexit : w.plain.session.worker.exit = none) (hlive : w.plain.session.queue.cancelled = false) :
    (w.after { w.plain with session := (w.plain.session.withEvents (rest.map Prod.fst)).handle e }
      w.frugal).Paired := by
  have hpaired := h.queue
  rw [hwaiting] at hpaired
  have hl : w.frugal.session.IsLive :=
    ha.frugal.isLive hidle (h.exit.trans hexit) (h.queue.cancelled.trans hlive)
  have hvouched := h.vouched hl
  rw [hwaiting] at hvouched
  have hlively : w.plain.session.target.Lively := by
    obtain ⟨trace, hplain⟩ := ha.plain
    exact ((ha.onward.concord hl).lively hl).of_matches h.target.symm hplain.exact.indexed
  -- The other session dropped the event, so what it says is in force already.
  have hforce : e.InForce w.plain.session.target w.plain.engine := by
    obtain ⟨first, second, hsplit, -⟩ | ⟨hforce, -⟩ := (hvouched [] e rest rfl).stands
    · cases first <;> cases hsplit
    · refine hforce.congr h.target.symm ?_
      rw [Session.outlook, hidle]
      exact h.engine.symm
  obtain ⟨htarget, hspare⟩ := hforce.dispatch hlively h.plain_self
  have hmarks : restated w.waiting (rest.map Prod.fst) = rest := by rw [hwaiting, restated_rest]
  rw [Session.handle_eq, Session.targetAfter_withEvents, Session.tasksAfter_withEvents]
  unfold after
  dsimp only [Session.withEvents]
  rw [hmarks]
  exact
    { queue := hpaired.tail_dropped, gate := h.gate, breakpoints := h.breakpoints, exit := h.exit
      target := htarget.symm.trans h.target, engine := h.engine
      agenda := .inr ⟨hidle, hspare⟩
      vouched := fun _ => hvouched.skip }

/-! ### Dispatching in both sessions -/

/-- Both dispatchers turn to a task: what it does to the engines, it does to both. -/
theorem strike (h : w.Paired) {task : Task} {rest : List Task}
    (hagenda : w.frugal.session.worker.agenda = task :: rest) :
    Paired { w with
      plain := ⟨w.plain.session.withAgenda rest, World.effectOnEngine w.plain.engine task⟩
      frugal := ⟨w.frugal.session.withAgenda rest, World.effectOnEngine w.frugal.engine task⟩ } where
  queue := h.queue
  gate := h.gate
  breakpoints := h.breakpoints
  exit := h.exit
  target := h.target
  engine := h.engine.effect task
  agenda := .inl rfl
  vouched hl := by
    refine (h.vouched ⟨hl.target, hl.queue⟩).congr h.frugal_self ?_
    rw [Session.outlook, hagenda]
    exact .refl _

/-- **Both dispatchers do a task.** -/
theorem perform (h : w.Paired) (ha : w.Arisen) {task : Task} {rest : List Task}
    (hagenda : w.frugal.session.worker.agenda = task :: rest)
    (hcovered : (w.after
      ⟨(w.plain.session.withAgenda rest).effect task, World.effectOnEngine w.plain.engine task⟩
      ⟨(w.frugal.session.withAgenda rest).effect task, World.effectOnEngine w.frugal.engine task⟩).Covered) :
    (w.after
      ⟨(w.plain.session.withAgenda rest).effect task, World.effectOnEngine w.plain.engine task⟩
      ⟨(w.frugal.session.withAgenda rest).effect task, World.effectOnEngine w.frugal.engine task⟩).Paired := by
  have hstruck := h.strike hagenda
  have hregate (gate : Gate) := hstruck.offered gate w.plain.session.breakpoints .nil
    (fun _ _ he => absurd he List.not_mem_nil)
  unfold Session.effect at hcovered ⊢
  -- Only a follow-up and the closing of the queue touch what waits.
  cases task with
  | callback | lastCallback | command | forward | forwardClosed => exact hstruck.unchanged hcovered
  | release | releaseAll | closeGate =>
      dsimp only [Session.withAgenda] at hcovered ⊢
      rw [h.gate, h.breakpoints] at hcovered ⊢
      exact hregate _ hcovered
  | followUp c =>
      have hc : .followUp c ∈ w.frugal.session.worker.agenda := hagenda ▸ List.mem_cons_self
      dsimp only at hcovered ⊢
      rw [Session.submit_offer, Session.submit_offer] at hcovered ⊢
      dsimp only [Session.withAgenda] at hcovered ⊢
      rw [h.gate, h.breakpoints] at hcovered ⊢
      refine hstruck.offered _ _ (List.pairwise_singleton _ _) (fun hl e he => ?_) hcovered
      obtain rfl := List.mem_singleton.mp he
      have hlive : w.frugal.session.IsLive := ⟨hl.target, hl.queue⟩
      refine ⟨?_, (ha.onward.concord hlive).unpaused_of_order fun id mode hmode => ?_⟩
      · rintro heq
        obtain rfl := Event.command.inj heq
        exact ha.onward.following hc
      · subst hmode
        exact ha.onward.awaited hlive id mode hc
  | closeQueue =>
      have hqueue := h.queue.close
      have hnone : restated w.waiting w.plain.session.queue.close.events = [] := restated_nil _
      exact
        { hstruck with
          queue := by
            show EventQueue.Paired (restated w.waiting w.plain.session.queue.close.events) _ _
            rw [hnone]
            exact hqueue
          vouched := fun _ => by
            show Bridge.VouchesAll _ (restated w.waiting w.plain.session.queue.close.events)
            rw [hnone]
            exact Bridge.vouchesAll_nil _ }
  | announceClosed =>
      have hsame := hstruck.unchanged hcovered
      exact
        { hsame with
          vouched := fun hl => (hsame.vouched ⟨hl.target, hl.queue⟩).congr h.frugal_self (.refl _) }
  | finish exit =>
      have hsame := hstruck.unchanged hcovered
      exact
        { hsame with
          exit := rfl
          vouched := fun hl => (hsame.vouched ⟨hl.target, hl.queue⟩).congr h.frugal_self (.refl _) }

/-- **Both dispatchers take an event.** -/
theorem take (h : w.Paired) (ha : w.Arisen) {e : Event} {rest : List (Event × Bool)}
    (hwaiting : w.waiting = (e, false) :: rest) (hidle : w.frugal.session.worker.agenda = []) :
    (w.after { w.plain with session := (w.plain.session.withEvents (rest.map Prod.fst)).handle e }
      { w.frugal with session := (w.frugal.session.withEvents (kept rest)).handle e }).Paired := by
  have hpaired := h.queue
  rw [hwaiting] at hpaired
  have hmarks : restated w.waiting (rest.map Prod.fst) = rest := by rw [hwaiting, restated_rest]
  obtain ⟨htasks, htarget⟩ : w.frugal.session.tasksAfter e = w.plain.session.tasksAfter e ∧
      (w.plain.session.targetAfter e).Matches (w.frugal.session.targetAfter e) := by
    cases e with
    | notification n =>
        obtain ⟨heffects, htarget⟩ := h.target.handleNotification w.plain.session.breakpoints n
        rw [Session.tasksAfter, Session.targetAfter, Session.targetAfter, h.breakpoints]
        exact ⟨congrArg (notificationTasks n) heffects, htarget⟩
    | command c =>
        obtain ⟨heffects, htarget⟩ := h.target.handleCommand c
        exact ⟨congrArg (commandTasks c) heffects, htarget⟩
  have hlasting : e ≠ .command .terminate := by
    have hevents : w.frugal.session.queue.events = e :: kept rest := hpaired.kept
    rintro rfl
    exact ha.onward.waiting (hevents ▸ List.mem_cons_self)
  -- Whoever was vouched for behind this event is so once it is taken.
  have hvouched (hstill : (w.frugal.session.targetAfter e).state ≠ .terminated)
      (hlive : w.frugal.session.queue.cancelled = false) : Bridge.VouchesAll
        { w.frugal with session := (w.frugal.session.withEvents (kept rest)).handle e } rest := by
    have hl : w.frugal.session.IsLive :=
      ⟨fun hover => hstill (by rw [Session.targetAfter_of_terminated hover, hover]), hlive⟩
    intro before d after hsplit
    have hone := h.vouched hl ((e, false) :: before) d after (by rw [hwaiting, hsplit]; rfl)
    rw [kept_cons] at hone
    exact hone.take ((ha.onward.concord hl).lively hl) hidle hlasting hstill
  rw [Session.handle_eq, Session.targetAfter_withEvents, Session.tasksAfter_withEvents] at hvouched
  rw [Session.handle_eq, Session.handle_eq, Session.targetAfter_withEvents, Session.targetAfter_withEvents,
    Session.tasksAfter_withEvents, Session.tasksAfter_withEvents, htasks]
  rw [htasks] at hvouched
  unfold after
  dsimp only [Session.withEvents] at hvouched ⊢
  rw [hmarks]
  exact
    { queue := hpaired.tail, gate := h.gate, breakpoints := h.breakpoints, exit := h.exit
      target := htarget, engine := h.engine, agenda := .inl rfl
      vouched := fun hl => hvouched hl.target hl.queue }

/-- Both dispatchers begin to close. -/
theorem take_end (h : w.Paired) (hend : w.plain.session.queue.cancelled = true ∨ w.waiting = []) :
    (w.after { w.plain with session := w.plain.session.withAgenda (closing .cancelled) }
      { w.frugal with session := w.frugal.session.withAgenda (closing .cancelled) }).Paired := by
  unfold after
  dsimp only [Session.withAgenda]
  rw [h.restated_events]
  refine
    { queue := h.queue, gate := h.gate, breakpoints := h.breakpoints, exit := h.exit
      target := h.target, engine := h.engine, agenda := .inl rfl, vouched := fun hl => ?_ }
  obtain hcancelled | hnone := hend
  · cases (h.queue.cancelled.trans hcancelled).symm.trans hl.queue
  · rw [hnone]
    exact Bridge.vouchesAll_nil _

/-- What two dispatchers with nothing left to do take, if the next event was not dropped. -/
theorem take?_cases (h : w.Paired) (hplain : w.plain.session.worker.agenda = [])
    (hfrugal : w.frugal.session.worker.agenda = [])
    (hnext : w.plain.session.queue.cancelled = false → ∀ e rest, w.waiting ≠ (e, true) :: rest) :
    (∃ e rest, w.waiting = (e, false) :: rest ∧
        w.plain.session.take? = some ((w.plain.session.withEvents (rest.map Prod.fst)).handle e) ∧
        w.frugal.session.take? = some ((w.frugal.session.withEvents (kept rest)).handle e)) ∨
      ((w.plain.session.queue.cancelled = true ∨ w.waiting = []) ∧
        w.plain.session.take? = some (w.plain.session.withAgenda (closing .cancelled)) ∧
        w.frugal.session.take? = some (w.frugal.session.withAgenda (closing .cancelled))) ∨
      w.plain.session.take? = none ∧ w.frugal.session.take? = none := by
  have hevents := h.queue.events
  have hkept := h.queue.kept
  cases hexit : w.plain.session.worker.exit with
  | some exit =>
      exact .inr (.inr ⟨Session.take?_of_done (by simp [hexit]),
        Session.take?_of_done (by simp [h.exit, hexit])⟩)
  | none =>
      have hexit' := h.exit.trans hexit
      cases hcancelled : w.plain.session.queue.cancelled with
      | true =>
          exact .inr (.inl ⟨.inl rfl, (Session.take?_of_end hplain hexit (.inl hcancelled)).1,
            (Session.take?_of_end hfrugal hexit' (.inl (h.queue.cancelled.trans hcancelled))).1⟩)
      | false =>
          have hcancelled' := h.queue.cancelled.trans hcancelled
          cases hwaiting : w.waiting with
          | nil =>
              rw [hwaiting] at hevents hkept
              cases hclosed : w.plain.session.queue.closed with
              | true =>
                  have hclosed' := h.queue.closed.trans hclosed
                  exact .inr (.inl ⟨.inr rfl,
                    (Session.take?_of_end hplain hexit (.inr ⟨hevents, hclosed⟩)).1,
                    (Session.take?_of_end hfrugal hexit' (.inr ⟨hkept, hclosed'⟩)).1⟩)
              | false =>
                  have hclosed' := h.queue.closed.trans hclosed
                  exact .inr (.inr ⟨Session.take?_of_drained hevents hcancelled hclosed,
                    Session.take?_of_drained hkept hcancelled' hclosed'⟩)
          | cons entry rest =>
              obtain ⟨e, dropped⟩ := entry
              rw [hwaiting] at hevents hkept
              cases dropped with
              | true => exact absurd hwaiting (hnext hcancelled e rest)
              | false =>
                  exact .inl ⟨e, rest, rfl, (Session.take?_of_event hplain hexit hcancelled hevents).1,
                    (Session.take?_of_event hfrugal hexit' hcancelled' hkept).1⟩

end Paired

/-- Is the plain dispatcher at an event that was dropped, or is it to take one? -/
theorem isAside_iff : w.isAside = true ↔ w.frugal.session.worker.agenda = [] ∧
    (w.plain.session.worker.agenda ≠ [] ∨
      w.plain.session.queue.cancelled = false ∧ ∃ e rest, w.waiting = (e, true) :: rest) := by
  unfold isAside
  cases hw : w.waiting with
  | nil => simp
  | cons entry rest =>
      obtain ⟨e, dropped⟩ := entry
      cases dropped <;> simp

/-- If it is not, either both dispatchers are at the same task, or both have nothing left to do. -/
theorem Paired.together (h : w.Paired) (hjoint : w.isAside = false) :
    (∃ task rest, w.plain.session.worker.agenda = task :: rest ∧
        w.frugal.session.worker.agenda = task :: rest) ∨
      w.plain.session.worker.agenda = [] ∧ w.frugal.session.worker.agenda = [] ∧
        (w.plain.session.queue.cancelled = false → ∀ e rest, w.waiting ≠ (e, true) :: rest) := by
  have hnot := mt isAside_iff.mpr (Bool.eq_false_iff.mp hjoint)
  cases hfrugal : w.frugal.session.worker.agenda with
  | cons task rest =>
      obtain hsame | ⟨hidle, -⟩ := h.agenda
      · exact .inl ⟨task, rest, hsame.symm.trans hfrugal, rfl⟩
      · cases hfrugal.symm.trans hidle
  | nil =>
      cases hplain : w.plain.session.worker.agenda with
      | cons task rest => exact absurd ⟨hfrugal, .inl (by simp [hplain])⟩ hnot
      | nil => exact .inr ⟨rfl, rfl, fun hlive e rest hw => hnot ⟨hfrugal, .inr ⟨hlive, e, rest, hw⟩⟩⟩

/-- **A step of the dispatchers keeps the invariant.** -/
theorem Paired.dispatch (h : w.Paired) (ha : w.Arisen) (hs : w.dispatch? = some w') (hcovered : w'.Covered) :
    w'.Paired := by
  obtain ⟨plain, hplain, ⟨haside, rfl⟩ | ⟨hjoint, frugal, hfrugal, rfl⟩⟩ := dispatch?_cases hs
  · obtain ⟨hidle, hturn⟩ := isAside_iff.mp haside
    cases hagenda : w.plain.session.worker.agenda with
    | cons task rest =>
        rw [Bridge.dispatch?_of_busy hagenda] at hplain
        obtain rfl := Option.some.inj hplain
        exact h.perform_aside hagenda hidle
    | nil =>
        obtain ⟨hlive, e, rest, hwaiting⟩ := hturn.resolve_left fun hne => hne hagenda
        rw [Bridge.dispatch?_of_idle hagenda] at hplain
        obtain ⟨session, htake, rfl⟩ := Option.map_eq_some_iff.mp hplain
        have hexit := (Session.take?_next htake).2.1
        have hevents := h.queue.events
        rw [hwaiting] at hevents
        rw [(Session.take?_of_event hagenda hexit hlive hevents).1] at htake
        obtain rfl := Option.some.inj htake
        exact h.take_aside ha hwaiting hidle hexit hlive
  · obtain ⟨task, rest, hp, hf⟩ | ⟨hp, hf, hnext⟩ := h.together hjoint
    · rw [Bridge.dispatch?_of_busy hp] at hplain
      rw [Bridge.dispatch?_of_busy hf] at hfrugal
      obtain rfl := Option.some.inj hplain
      obtain rfl := Option.some.inj hfrugal
      exact h.perform ha hf hcovered
    · rw [Bridge.dispatch?_of_idle hp] at hplain
      rw [Bridge.dispatch?_of_idle hf] at hfrugal
      obtain ⟨e, rest, hwaiting, htake, htake'⟩ | ⟨hend, htake, htake'⟩ | ⟨htake, -⟩ :=
        h.take?_cases hp hf hnext
      · rw [htake] at hplain
        rw [htake'] at hfrugal
        obtain rfl := Option.some.inj hplain
        obtain rfl := Option.some.inj hfrugal
        exact h.take ha hwaiting hf
      · rw [htake] at hplain
        rw [htake'] at hfrugal
        obtain rfl := Option.some.inj hplain
        obtain rfl := Option.some.inj hfrugal
        exact h.take_end hend
      · rw [htake] at hplain
        cases hplain

/-- The dispatchers make a step for as long as one of them could. -/
theorem Paired.dispatch?_none (h : w.Paired) (hs : w.dispatch? = none) :
    w.plain.dispatch? = none ∧ w.frugal.dispatch? = none := by
  unfold SessionPair.dispatch? at hs
  split at hs
  · next haside =>
      have hplain := Option.map_eq_none_iff.mp hs
      refine ⟨hplain, ?_⟩
      obtain ⟨hidle, hturn⟩ := isAside_iff.mp haside
      have hagenda : w.plain.session.worker.agenda = [] := by
        cases hagenda : w.plain.session.worker.agenda with
        | nil => rfl
        | cons task rest =>
            rw [Bridge.dispatch?_of_busy hagenda] at hplain
            cases hplain
      obtain ⟨hlive, e, rest, hwaiting⟩ := hturn.resolve_left fun hne => hne hagenda
      have hevents := h.queue.events
      rw [hwaiting] at hevents
      -- It would take the event, were it not done.
      have hdone : w.plain.session.worker.exit ≠ none := by
        intro hexit
        rw [Bridge.dispatch?_of_idle hagenda, (Session.take?_of_event hagenda hexit hlive hevents).1] at hplain
        cases hplain
      rw [Bridge.dispatch?_of_idle hidle, Session.take?_of_done (h.exit.symm ▸ hdone)]
      rfl
  · next hjoint =>
      obtain ⟨task, rest, hp, hf⟩ | ⟨hp, hf, hnext⟩ := h.together (Bool.eq_false_iff.mpr hjoint)
      · rw [Bridge.dispatch?_of_busy hp, Bridge.dispatch?_of_busy hf] at hs
        cases hs
      · rw [Bridge.dispatch?_of_idle hp, Bridge.dispatch?_of_idle hf] at hs ⊢
        obtain ⟨e, rest, -, htake, htake'⟩ | ⟨-, htake, htake'⟩ | ⟨htake, htake'⟩ :=
          h.take?_cases hp hf hnext
        · rw [htake, htake'] at hs
          cases hs
        · rw [htake, htake'] at hs
          cases hs
        · rw [htake, htake']
          exact ⟨rfl, rfl⟩

/-- They go on as the plain one does. -/
theorem Paired.plain_dispatch? (h : w.Paired) : w.dispatch?.map SessionPair.plain = w.plain.dispatch? := by
  cases hs : w.dispatch? with
  | none => exact (h.dispatch?_none hs).1.symm
  | some w' =>
      obtain ⟨plain, hplain, ⟨-, rfl⟩ | ⟨-, frugal, -, rfl⟩⟩ := dispatch?_cases hs
      · exact hplain.symm
      · exact hplain.symm

/-! ### Whole runs -/

/-- One step of both after which a condition holds. -/
def Keeps (P : SessionPair → Prop) (w : SessionPair) (m : Move) (w' : SessionPair) : Prop :=
  Step w m w' ∧ P w'

theorem Paired.step (h : w.Paired) (ha : w.Arisen) {m : Move} (hs : Keeps Covered w m w') : w'.Paired := by
  obtain ⟨hgoes, hcovered⟩ := hs
  cases hgoes with
  | call hc => exact h.call ha hc hcovered
  | dispatch hs => exact h.dispatch ha hs hcovered

/-- **The invariant holds throughout**, provided that what is dropped is covered. -/
theorem paired_of_execution {settings : DebuggerSettings} {trace : List Move}
    (h : Execution (Keeps Covered) (start settings) trace w) : w.Paired :=
  (h.state_invariant (P := fun w => w.Paired ∧ w.Arisen) ⟨paired_start settings, arisen_start settings⟩
    fun hw hs => ⟨hw.1.step hw.2 hs, hw.2.step hs.1⟩).1

/-- The sessions after a step of the dispatchers, if they can make one. -/
def dispatched (w : SessionPair) : SessionPair :=
  w.dispatch?.getD w

/-- Both sessions get a call. -/
theorem execution_call {P : SessionPair → Prop} {init : SessionPair} {trace : List Move}
    (h : Execution (Keeps P) init trace w) (c : Call) (hc : c.IsPatient) (hP : P (w.call c)) :
    Execution (Keeps P) init (trace ++ [.call c]) (w.call c) :=
  h.next ⟨.call w hc, hP⟩

/-- The dispatchers make steps of their own. -/
theorem execution_of_dispatched {P : SessionPair → Prop} {init : SessionPair} {trace : List Move}
    (h : Execution (Keeps P) init trace w) (count : Nat)
    (hP : ∀ k, k ≤ count → P (Nat.repeat dispatched k w)) :
    ∃ trace, Execution (Keeps P) init trace (Nat.repeat dispatched count w) := by
  induction count with
  | zero => exact ⟨trace, h⟩
  | succ count ih =>
      obtain ⟨before, hrun⟩ := ih fun k hk => hP k (Nat.le_succ_of_le hk)
      have hlast : P (dispatched (Nat.repeat dispatched count w)) := hP (count + 1) (Nat.le_refl _)
      show ∃ trace, Execution (Keeps P) init trace (dispatched (Nat.repeat dispatched count w))
      generalize Nat.repeat dispatched count w = last at hrun hlast ⊢
      cases hs : last.dispatch? with
      | none =>
          rw [dispatched, hs]
          exact ⟨before, hrun⟩
      | some next =>
          rw [dispatched, hs] at hlast ⊢
          exact ⟨_, hrun.next ⟨.dispatch hs, hlast⟩⟩

/-- Does nothing that waits undo anything else that waits? -/
def isCalm (w : SessionPair) : Bool :=
  w.waiting.all fun x => w.waiting.all fun e => !x.1.undoes e.1

theorem covered_of_isCalm (h : w.isCalm = true) : w.Covered := by
  intro before e after hsplit first second hkept x hx
  have hmem : ∃ entry ∈ w.waiting, entry.1 = x := by
    have hx' : x ∈ kept before := hkept ▸ List.mem_append_right _ (List.mem_cons_of_mem _ hx)
    obtain ⟨entry, hentry, rfl⟩ := List.mem_map.mp hx'
    exact ⟨entry, hsplit ▸ List.mem_append_left _ (List.mem_filter.mp hentry).1, rfl⟩
  obtain ⟨entry, hentry, rfl⟩ := hmem
  have hdropped : (e, true) ∈ w.waiting := hsplit ▸ List.mem_append_right _ List.mem_cons_self
  have hall := List.all_eq_true.mp (List.all_eq_true.mp h entry hentry) (e, true) hdropped
  simpa using hall

/-- Two sessions in which thread 1 has announced its script. -/
def announced : SessionPair :=
  let script : Snapshot := { id := ⟨1⟩, title := "a", source := "print 1", resource := some "a" }
  (Nat.repeat dispatched 2 ((start {}).call (.report .engineStarted))).call
    (.report (.scriptReady ⟨1⟩ script true))

/-- Two sessions in which thread 1 runs its script. -/
def underway : SessionPair :=
  Nat.repeat dispatched 10 announced

/-- Nothing that waits on the way there undoes anything else. -/
theorem execution_underway : ∃ trace, Execution (Keeps Covered) (start {}) trace underway := by
  have hstarted : ∀ k, k ≤ 2 →
      (Nat.repeat dispatched k ((start {}).call (.report .engineStarted))).isCalm = true := by decide +kernel
  obtain ⟨first, hfirst⟩ := execution_of_dispatched
    (execution_call .start (.report .engineStarted) trivial (covered_of_isCalm (hstarted 0 (by decide)))) 2
    fun k hk => covered_of_isCalm (hstarted k hk)
  have hready : ∀ k, k ≤ 10 → (Nat.repeat dispatched k announced).isCalm = true := by decide +kernel
  exact execution_of_dispatched
    (execution_call hfirst (.report (.scriptReady ⟨1⟩ _ true)) trivial
      (covered_of_isCalm (hready 0 (by decide)))) 10
    fun k hk => covered_of_isCalm (hready k hk)

/-! ### The main result -/

/-- **Dropping duplicates loses no update.** Whatever is called and whenever events are dispatched, threads,
frames, pauses and breakpoints are the same with and without duplicates, provided that no event is dropped
while one that undoes it waits behind the equal one. The dispatchers go on as the plain one does, and the
frugal one is at rest when the plain one is. -/
theorem dedupe_loses_no_update {settings : DebuggerSettings} {trace : List Move}
    (h : Execution (Keeps Covered) (start settings) trace w) :
    (∀ id, w.frugal.session.target.stateOf id = w.plain.session.target.stateOf id) ∧
      (∀ id, w.frugal.session.target.framesOf id = w.plain.session.target.framesOf id) ∧
      w.frugal.session.gate.paused = w.plain.session.gate.paused ∧
      (∀ script, w.frugal.engine.breakpointsOf script = w.plain.engine.breakpointsOf script) ∧
      w.plain.session.queue.events = w.waiting.map Prod.fst ∧
      w.frugal.session.queue.events = kept w.waiting ∧
      w.dispatch?.map SessionPair.plain = w.plain.dispatch? ∧
      (w.plain.dispatch? = none → w.frugal.dispatch? = none) := by
  have hp := paired_of_execution h
  refine ⟨hp.target.stateOf, hp.target.framesOf, congrArg Gate.paused hp.gate, hp.engine, hp.queue.events,
    hp.queue.kept, hp.plain_dispatch?, fun hnone => ?_⟩
  have hall : w.dispatch?.map SessionPair.plain = none := hp.plain_dispatch?.trans hnone
  exact (hp.dispatch?_none (Option.map_eq_none_iff.mp hall)).2

/-- The same stack is reported twice and the same breakpoint is set twice, before any of it is dispatched. -/
def repeated : SessionPair :=
  (((underway.call (.report (.stackFrames ⟨1⟩ []))).call (.report (.stackFrames ⟨1⟩ []))).call
    (.control (.setBreakpoint ⟨1⟩ { resource := "a", line := 1 }))).call
      (.control (.setBreakpoint ⟨1⟩ { resource := "a", line := 1 }))

/-- Two of four events are dropped, and are not missed. -/
theorem dedupe_loses_no_update_repeated :
    repeated.plain.session.queue.size = 4 ∧ repeated.frugal.session.queue.size = 2 ∧
      ∃ trace w, Execution (Keeps Covered) (start {}) trace w ∧ w = Nat.repeat dispatched 10 repeated ∧
        w.plain.session.queue.events = [] ∧ w.frugal.session.queue.events = [] ∧
        w.frugal.engine.breakpointsOf ⟨1⟩ = w.plain.engine.breakpointsOf ⟨1⟩ ∧
        w.frugal.session.target.framesOf ⟨1⟩ = w.plain.session.target.framesOf ⟨1⟩ := by
  obtain ⟨before, hunderway⟩ := execution_underway
  have hcalls : (underway.call (.report (.stackFrames ⟨1⟩ []))).isCalm = true ∧
      ((underway.call (.report (.stackFrames ⟨1⟩ []))).call (.report (.stackFrames ⟨1⟩ []))).isCalm = true ∧
      (((underway.call (.report (.stackFrames ⟨1⟩ []))).call (.report (.stackFrames ⟨1⟩ []))).call
        (.control (.setBreakpoint ⟨1⟩ { resource := "a", line := 1 }))).isCalm = true := by decide +kernel
  have hcalm : ∀ k, k ≤ 10 → (Nat.repeat dispatched k repeated).isCalm = true := by decide +kernel
  have hshown := execution_call hunderway (.report (.stackFrames ⟨1⟩ [])) trivial
    (covered_of_isCalm hcalls.1)
  have hagain := execution_call hshown (.report (.stackFrames ⟨1⟩ [])) trivial
    (covered_of_isCalm hcalls.2.1)
  have hset := execution_call hagain (.control (.setBreakpoint ⟨1⟩ _)) trivial
    (covered_of_isCalm hcalls.2.2)
  have hcalled := execution_call hset (.control (.setBreakpoint ⟨1⟩ _)) trivial
    (covered_of_isCalm (hcalm 0 (by decide)))
  obtain ⟨trace, h⟩ := execution_of_dispatched hcalled 10 fun k hk => covered_of_isCalm (hcalm k hk)
  obtain ⟨-, hframes, -, hbreakpoints, -⟩ := dedupe_loses_no_update h
  exact ⟨by decide +kernel, by decide +kernel, trace, _, h, rfl, by decide +kernel, by decide +kernel,
    hbreakpoints ⟨1⟩, hframes ⟨1⟩⟩

/-- A breakpoint is added, removed and added again, before any of it is dispatched. -/
def wavering : SessionPair :=
  ((underway.call (.control (.addBreakpoint { resource := "a", line := 1 }))).call
    (.control (.removeBreakpoint { resource := "a", line := 1 }))).call
      (.control (.addBreakpoint { resource := "a", line := 1 }))

/-- **A breakpoint that is lost**: the second change to add it is dropped because the first one waits, in
front of the one that removes it. -/
theorem dedupe_loses_breakpoint : ∃ trace w, Execution Step (start {}) trace w ∧
    w.plain.session.queue.events = [] ∧ w.frugal.session.queue.events = [] ∧ w.dispatch? = none ∧
    w.plain.engine.breakpointsOf ⟨1⟩ = [{ resource := "a", line := 1 }] ∧
    w.frugal.engine.breakpointsOf ⟨1⟩ = [] := by
  obtain ⟨before, hunderway⟩ := execution_underway
  have hgoes : Execution (Keeps fun _ => True) (start {}) before underway :=
    hunderway.mono fun hs => ⟨hs.1, trivial⟩
  have hadd := execution_call hgoes (.control (.addBreakpoint { resource := "a", line := 1 })) trivial trivial
  have hremove :=
    execution_call hadd (.control (.removeBreakpoint { resource := "a", line := 1 })) trivial trivial
  have hcalled :=
    execution_call hremove (.control (.addBreakpoint { resource := "a", line := 1 })) trivial trivial
  obtain ⟨trace, h⟩ := execution_of_dispatched hcalled 10 fun _ _ => trivial
  have hrest : (Nat.repeat dispatched 10 wavering).dispatch?.isNone = true := by decide +kernel
  exact ⟨trace, Nat.repeat dispatched 10 wavering, h.mono And.left, by decide +kernel, by decide +kernel,
    Option.isNone_iff_eq_none.mp hrest, by decide +kernel, by decide +kernel⟩

end SessionPair

end Pausepoint
