import Pausepoint.Proofs.World.Orderly
import Pausepoint.Proofs.World.Schedule
import Pausepoint.Proofs.World.Wakeup

/-!
# Pausepoint.Proofs.World.Answers

A decision answers the pause that it was made for.

A decision carries no more than the name of a thread. That it finds the right pause is a matter of order:
between the call that makes it and its dispatch the thread may go on, and pause again.
`resume_answers_its_pause` is the main result: when the decision is dispatched and reaches the gate and
the engine, the thread has reported no pause since, and its call still waits for the one that the decision
was made for. This holds of every run in which calls wait without a bound, and with a bound of every
decision whose pause is not given up before. `stale_decision` is a run in which it is.

* `World.Undecided` — the call of a thread waits for a pause, which nobody has decided on;
* `World.Kept` — the invariant: while the decision is queued, nothing but an undecided pause leaves the
  thread suspended, and no later one stands in front of the decision.
-/

namespace Pausepoint

namespace World

/-! ### What is counted -/

def Act.reportsPause (thread : ThreadId) : Act → Bool
  | .step id (some (.reporting _)) (some (.waiting _)) => id = thread
  | _ => false

/-- The dispatcher takes an event. -/
def Act.takes : Act → Bool
  | .dispatch none => true
  | _ => false

/-- The call of a thread gives up. -/
def Act.givesUp (thread : ThreadId) : Act → Bool
  | .step id (some (.waiting _)) (some (.abandoning _)) => id = thread
  | _ => false

/-- How many pauses a thread reported. -/
def pausesOf (thread : ThreadId) (trace : List Act) : Nat :=
  trace.countP (Act.reportsPause thread)

/-- How many events were taken. -/
def takenIn (trace : List Act) : Nat :=
  trace.countP Act.takes

/-- How many pauses of a thread were dispatched: all that it reported but those that are queued. -/
def dispatchedPauses (thread : ThreadId) (trace : List Act) (w : World) : Nat :=
  pausesOf thread trace - (lane thread w.session.queue.events).countP Notification.isPause

theorem pausesOf_snoc (thread : ThreadId) (trace : List Act) (act : Act) :
    pausesOf thread (trace ++ [act]) =
      pausesOf thread trace + if act.reportsPause thread then 1 else 0 := by
  rw [pausesOf, List.countP_append, List.countP_singleton]
  rfl

theorem takenIn_snoc (trace : List Act) (act : Act) :
    takenIn (trace ++ [act]) = takenIn trace + if act.takes then 1 else 0 := by
  rw [takenIn, List.countP_append, List.countP_singleton]
  rfl

/-! ### A pause that nobody has decided on -/

/-- The call of a thread waits for a pause, its slot is empty, and since some moment the thread has
reported no other pause. -/
structure Undecided (thread : ThreadId) (p : Pause) (later : List Act) (w : World) : Prop where
  waits : phaseOf w.jobs thread = some (.waiting p)
  slot : w.engine.slots.get? thread = some none
  since : pausesOf thread later = 0

/-- **It stays so** until a decision reaches the engine, or the call gives up. -/
theorem Undecided.moves {w w' : World} {thread : ThreadId} {p : Pause} {later : List Act} {act : Act}
    (h : Undecided thread p later w) (ho : w.Orderly) (hlive : w.Lively) (hm : Moves w act w')
    (hgives : act.givesUp thread = false)
    (hforward : ∀ mode, act ≠ .dispatch (some (.forward (.resume thread mode)))) :
    Undecided thread p (later ++ [act]) w' := by
  have hsince (hact : act.reportsPause thread = false) : pausesOf thread (later ++ [act]) = 0 := by
    rw [pausesOf_snoc, h.since, hact]
    rfl
  cases hm with
  | dispatch hd hends =>
      obtain ⟨-, hjobs, ⟨task, session, hs, hb⟩ | ⟨session, -, hs, hb⟩⟩ :=
        dispatchStep?_cases ho.calm hd
      · obtain ⟨rest, hagenda, -⟩ := Session.perform?_cases hs
        have hmild := hlive.mild task (by rw [hagenda]; exact List.mem_cons_self)
        refine ⟨by rw [hjobs.phaseOf]; exact h.waits, ?_, hsince rfl⟩
        rw [show w'.engine = effectOnEngine w.engine task from congrArg Bridge.engine hb]
        -- Only a decision on this thread fills its slot, and that one is excluded.
        cases task with
        | forward c =>
            have hends := Command.IsMild.ends_nothing hmild
            rw [(apply_frame w.engine hends).2.2 thread fun mode he => ?_]
            · exact h.slot
            · exact hforward mode (by rw [hagenda, he]; rfl)
        | release | callback | command | followUp => exact h.slot
        | releaseAll | lastCallback | closeQueue | closeGate | forwardClosed | announceClosed
        | finish => exact hmild.elim
      · refine ⟨by rw [hjobs.phaseOf]; exact h.waits, ?_, hsince rfl⟩
        rw [show w'.engine = w.engine from (congrArg Bridge.engine hb :)]
        exact h.slot
  | @step b before after j j' hjobs hstep =>
      obtain ⟨hcall, hthread⟩ := callStep_of_job hstep
      have hphase : phaseOf w.jobs j.thread = j.phase :=
        phaseOf_of_mem ho.distinct (by rw [hjobs]; simp)
      -- The call of the thread waits, and nothing wakes it, so that someone else makes the step.
      have hne : thread ≠ j.thread := by
        rintro rfl
        have hasleep : w.engine.wakening? j.thread = none := by
          unfold Engine.wakening?
          rw [h.slot, hlive.engine_open]
        have hwaits := h.waits
        rw [hphase] at hwaits
        rw [hwaits] at hcall
        generalize j'.phase = phase' at hcall
        cases hcall with
        | takeUp hwake => cases hasleep.symm.trans hwake
        | closed hwake => cases hasleep.symm.trans hwake
      refine ⟨?_, ?_, hsince ?_⟩
      · rw [phaseOf_advanced hjobs hthread (phase_of_result hstep) ho.distinct, if_neg hne]
        exact h.waits
      · rw [show (w.advanced b before j' after).engine = b.engine from
          congrArg Bridge.engine (bridge_advanced w b before j' after), slots_step hcall hne]
        exact h.slot
      · unfold Act.reportsPause
        split
        · next heq =>
            injection heq with hid
            exact decide_eq_false (hid ▸ Ne.symm hne)
        · rfl
  | @giveUp b before after j j' hjobs hgive =>
      obtain ⟨q, milliseconds, hphase, -, -, rfl, rfl⟩ := giveUp?_cases hgive
      -- Whoever gives up is another thread.
      have hne : thread ≠ j.thread := by
        rintro rfl
        rw [hphase] at hgives
        simp [Act.givesUp, Job.inPhase] at hgives
      refine ⟨?_, ?_, hsince (by rw [hphase]; rfl)⟩
      · obtain ⟨point, heap, resume, hrun⟩ := ho.asks j (by rw [hjobs]; simp) (by rw [hphase]; rfl)
        have hthread : (j.inPhase (.abandoning milliseconds)).thread = j.thread := rfl
        have hover : (j.inPhase (.abandoning milliseconds)).result?.isSome →
            (j.inPhase (.abandoning milliseconds)).phase = none := by
          simp [Job.result?, Job.inPhase, hrun]
        rw [phaseOf_advanced hjobs hthread hover ho.distinct, if_neg hne]
        exact h.waits
      · rw [show (w.advanced _ before _ after).engine = _ from
          congrArg Bridge.engine (bridge_advanced w _ before _ after)]
        exact (slots_dropSlot _ _ _).trans ((if_neg hne).trans h.slot)
  | @begin j nextHeap hphase hnew =>
      refine ⟨by rw [phaseOf_begin nextHeap hphase hnew]; exact h.waits, ?_, hsince rfl⟩
      rw [show (({ w with nextHeap } : World).begin j).engine = w.engine from
        congrArg Bridge.engine (bridge_begin _ j)]
      exact h.slot
  | call c hc => exact ⟨h.waits, h.slot, hsince rfl⟩

/-! ### While the decision is queued -/

/-- The tasks of a decision that is dispatched. -/
def decisionTasks (thread : ThreadId) (mode : Mode) : List Task :=
  [.release thread, .callback (.threadStateChanged thread mode.resultingState),
    .command (.resume thread mode), .forward (.resume thread mode)]

/-- **The invariant** from the call that makes a decision on, which is queued behind so many events. -/
structure Kept (thread : ThreadId) (mode : Mode) (place : Nat) (p : Pause) (later : List Act)
    (w : World) : Prop where
  orderly : w.Orderly
  /-- The decision stands where it should, and no pause of its thread in front of it. -/
  queued : takenIn later ≤ place → w.session.target.state ≠ .terminated →
    w.session.queue.events[place - takenIn later]? = some (.command (.resume thread mode)) ∧
      ∀ n ∈ lane thread (w.session.queue.events.take (place - takenIn later)), n.isPause = false
  /-- A thread that is still suspended is so by the pause that the decision was made for. -/
  suspended : takenIn later ≤ place → w.session.target.state ≠ .terminated →
    w.session.target.stateOf thread = some .suspended → Undecided thread p later w
  /-- So is the pause that the decision reaches. -/
  handed : takenIn later = place + 1 → w.session.Letting thread →
    w.session.worker.agenda <:+ decisionTasks thread mode ∧ Undecided thread p later w

/-- A dispatched decision that reaches anyone leaves these tasks. -/
theorem tasksAfter_resume {s : Session} (hr : s.target.registry.Exact) {thread : ThreadId} {mode : Mode}
    (hlive : s.target.isTerminated = false) (hs : s.target.stateOf thread = some .suspended) :
    s.tasksAfter (.command (.resume thread mode)) = decisionTasks thread mode := by
  obtain ⟨next, -, -, heffects⟩ := Target.moves_of_resume hr.indexed hlive mode hs
  rw [Session.tasksAfter, heffects]
  rfl

/-- What a move that takes no event leaves of a session: the state of every thread, and what is queued,
as long as the session is not over. -/
structure Untaken (w : World) (act : Act) (w' : World) : Prop where
  state : w'.session.target.state = w.session.target.state
  stateOf : ∀ id, w'.session.target.stateOf id = w.session.target.stateOf id
  events : w.session.target.state ≠ .terminated →
    ∃ es, w'.session.queue.events = w.session.queue.events ++ es
  agenda : (∀ task, act ≠ .dispatch (some task)) ∧
      w'.session.worker.agenda = w.session.worker.agenda ∨
    ∃ task, act = .dispatch (some task) ∧ w.session.worker.agenda = task :: w'.session.worker.agenda

theorem untaken_moves {w w' : World} {act : Act} (h : w.Orderly) (hm : Moves w act w')
    (hact : act.takes = false) : Untaken w act w' := by
  -- A job touches the session only by what it reports.
  have hreported {b : Bridge} {before after : List Job} {j : Job} (hr : Reported w.session b.session)
      (hact : ∀ task, act ≠ .dispatch (some task)) : Untaken w act (w.advanced b before j after) := by
    have hs : (w.advanced b before j after).session = b.session :=
      congrArg Bridge.session (bridge_advanced w b before j after)
    obtain ⟨ns, hq⟩ := hr.queue
    refine ⟨?_, fun id => ?_, fun _ => ⟨ns.map .notification, ?_⟩, .inl ⟨hact, ?_⟩⟩
    · rw [hs, hr.target]
    · rw [hs, hr.target]
    · rw [hs, hq]
    · rw [hs, hr.worker]
  cases hm with
  | dispatch hd hends =>
      obtain ⟨-, -, ⟨task, session, hs, hb⟩ | ⟨session, -, hs, hb⟩⟩ := dispatchStep?_cases h.calm hd
      · obtain ⟨rest, hagenda, hsession⟩ := Session.perform?_cases hs
        have hs' : w'.session = (w.session.withAgenda rest).effect task :=
          (congrArg Bridge.session hb).trans hsession
        have htarget : w'.session.target = w.session.target := by
          rw [hs', Session.target_effect]
          rfl
        refine ⟨congrArg Target.state htarget, fun id => congrArg (Target.stateOf · id) htarget,
          fun hlive => ?_, .inr ⟨task, ?_, ?_⟩⟩
        · have hmild := (h.lively hlive).mild task (by rw [hagenda]; exact List.mem_cons_self)
          rw [hs']
          cases task with
          | followUp c =>
              obtain ⟨cs, -, hc, -⟩ := (w.session.withAgenda rest).commanded_submit c
              exact ⟨_, hc.events⟩
          | release | callback | command | forward => exact ⟨[], (List.append_nil _).symm⟩
          | releaseAll | lastCallback | closeQueue | closeGate | forwardClosed | announceClosed
          | finish => exact hmild.elim
        · rw [hagenda]
          rfl
        · rw [hs', Session.agenda_effect, Session.agenda_withAgenda]
          exact hagenda
      · rw [(Session.take?_cases hs).1] at hact
        cases hact
  | step hjobs hstep => exact hreported (reported_of_callStep (callStep_of_job hstep).1).1 nofun
  | giveUp hjobs hgive =>
      obtain ⟨p, milliseconds, -, -, -, rfl, rfl⟩ := giveUp?_cases hgive
      exact hreported (.of_gate rfl rfl rfl rfl) nofun
  | @begin j nextHeap hphase hnew =>
      have hs : (({ w with nextHeap } : World).begin j).session = w.session :=
        congrArg Bridge.session (bridge_begin _ j)
      refine ⟨?_, fun id => ?_, fun _ => ⟨[], ?_⟩, .inl ⟨nofun, ?_⟩⟩ <;> rw [hs]
      exact (List.append_nil _).symm
  | call c hc =>
      -- A client queues commands, and changes nothing of what was dispatched.
      obtain ⟨cs, hcs⟩ := ControlCall.commanded w.session c hc
      have hreads := w.session.rereads_call c
      exact ⟨hreads.state, hreads.stateOf h.exact, fun _ => ⟨_, hcs.events⟩,
        .inl ⟨nofun, congrArg Worker.agenda hcs.worker⟩⟩

namespace Kept

variable {w w' : World} {thread : ThreadId} {mode : Mode} {place : Nat} {p : Pause} {later : List Act}
  {act : Act}

/-- A move that takes no event. -/
theorem untaken (h : Kept thread mode place p later w) (hm : Moves w act w') (hact : act.takes = false)
    (hgives : act.givesUp thread = false) : Kept thread mode place p (later ++ [act]) w' := by
  have hsame := untaken_moves h.orderly hm hact
  have htaken : takenIn (later ++ [act]) = takenIn later := by
    rw [takenIn_snoc, hact]
    rfl
  refine ⟨h.orderly.moves hm, ?_, ?_, ?_⟩
  · rw [htaken, hsame.state]
    intro hbefore hlive
    obtain ⟨hplace, hlane⟩ := h.queued hbefore hlive
    obtain ⟨es, hevents⟩ := hsame.events hlive
    obtain ⟨hlt, -⟩ := List.getElem?_eq_some_iff.mp hplace
    rw [hevents, List.getElem?_append_left hlt, List.take_append_of_le_length (Nat.le_of_lt hlt)]
    exact ⟨hplace, hlane⟩
  · rw [htaken, hsame.state, hsame.stateOf]
    intro hbefore hlive hsus
    have hlively := h.orderly.lively hlive
    refine (h.suspended hbefore hlive hsus).moves h.orderly hlively hm hgives fun other hact => ?_
    -- A decision that reaches the engine would have let the thread go on.
    rcases hsame.agenda with ⟨hother, -⟩ | ⟨task, htask, hagenda⟩
    · exact absurd hact (hother _)
    · obtain rfl : task = .forward (.resume thread other) := by
        rw [htask] at hact
        injection hact with hact
        exact Option.some.inj hact
      have hletting : w.session.Letting thread :=
        ⟨.forward (.resume thread other), by rw [hagenda]; exact List.mem_cons_self, rfl⟩
      exact hlively.letting thread hletting hsus
  · rw [htaken]
    intro hdone hlets
    rcases hsame.agenda with ⟨hother, hagenda⟩ | ⟨task, htask, hagenda⟩
    · have hbefore : w.session.Letting thread := by
        rwa [Session.Letting, hagenda] at hlets
      obtain ⟨hsuffix, hundecided⟩ := h.handed hdone hbefore
      rw [hagenda]
      exact ⟨hsuffix, hundecided.moves h.orderly (h.orderly.lively_of_letting hbefore) hm hgives
        fun other => hother _⟩
    · obtain ⟨next, hmem, hnext⟩ := hlets
      have hbefore : w.session.Letting thread :=
        ⟨next, by rw [hagenda]; exact List.mem_cons_of_mem _ hmem, hnext⟩
      obtain ⟨hsuffix, hundecided⟩ := h.handed hdone hbefore
      rw [hagenda] at hsuffix
      refine ⟨(List.suffix_cons _ _).trans hsuffix,
        hundecided.moves h.orderly (h.orderly.lively_of_letting hbefore) hm hgives fun other hact => ?_⟩
      -- The engine comes last, and something is left.
      obtain rfl : task = .forward (.resume thread other) := by
        rw [htask] at hact
        injection hact with hact
        exact Option.some.inj hact
      have hnil : w'.session.worker.agenda = [] := by
        simp only [decisionTasks, List.suffix_cons_iff, List.cons.injEq, List.suffix_nil] at hsuffix
        rcases hsuffix with ⟨h, -⟩ | ⟨h, -⟩ | ⟨h, -⟩ | ⟨-, hnil⟩ | h
        · cases h
        · cases h
        · cases h
        · exact hnil
        · cases h
      rw [hnil] at hmem
      cases hmem

/-- **An event is taken.** -/
theorem taken (h : Kept thread mode place p later w) (hm : Moves w act w') (hact : act.takes = true)
    (hgives : act.givesUp thread = false) : Kept thread mode place p (later ++ [act]) w' := by
  have ho := h.orderly.moves hm
  have htaken : takenIn (later ++ [act]) = takenIn later + 1 := by
    rw [takenIn_snoc, hact]
    rfl
  cases hm with
  | step | giveUp | begin | call => cases hact
  | dispatch hd hends =>
      have hmove := Moves.dispatch hd hends
      have hforward (other) : Act.dispatch w.session.worker.agenda.head? ≠
          .dispatch (some (.forward (.resume thread other))) := by
        intro he
        rw [he] at hact
        cases hact
      obtain ⟨-, -, ⟨task, session, hs, -⟩ | ⟨session, -, hs, hb⟩⟩ := dispatchStep?_cases h.orderly.calm hd
      · obtain ⟨rest, hagenda, -⟩ := Session.perform?_cases hs
        rw [hagenda] at hact
        cases hact
      · have hs' : w'.session = session := congrArg Bridge.session hb
        -- A session that is not over took an event, and was not over before.
        have hopen (hlive : w'.session.target.state ≠ .terminated) :
            w.session.target.state ≠ .terminated ∧ ∃ e rest, w.session.queue.events = e :: rest ∧
              w'.session = (w.session.withEvents rest).handle e := by
          rw [hs'] at hlive ⊢
          have hl := Session.isLive_of_take hs ⟨hlive, hs' ▸ ho.uncancelled⟩
          obtain ⟨-, hevent⟩ :=
            Session.take?_open (h.orderly.lively hl.target).queue_open hl.queue hs
          exact ⟨hl.target, hevent⟩
        have hnot (hlive : w.session.target.state ≠ .terminated) :
            w.session.target.isTerminated = false := by
          simpa [Target.isTerminated] using hlive
        refine ⟨ho, fun hbefore hlive => ?_, fun hbefore hlive hsus => ?_, fun hdone hlets => ?_⟩
        · obtain ⟨hlive', e, rest, hevents, hsession⟩ := hopen hlive
          obtain ⟨hplace, hlane⟩ := h.queued (by omega) hlive'
          rw [show place - takenIn later = (place - (takenIn later + 1)) + 1 by omega, hevents]
            at hplace hlane
          rw [htaken, hsession, Session.queue_handle, Session.events_withEvents]
          refine ⟨hplace, fun n hn => hlane n ?_⟩
          rw [List.take_succ_cons]
          exact mem_lane.mpr ⟨List.mem_cons_of_mem _ (mem_lane.mp hn).1, (mem_lane.mp hn).2⟩
        · obtain ⟨hlive', e, rest, hevents, hsession⟩ := hopen hlive
          obtain ⟨-, hlane⟩ := h.queued (by omega) hlive'
          rw [show place - takenIn later = (place - (takenIn later + 1)) + 1 by omega, hevents,
            List.take_succ_cons] at hlane
          rw [hsession, Session.target_handle, Session.targetAfter_withEvents] at hsus
          have hsus' : w.session.target.stateOf thread = some .suspended := by
            cases e with
            | notification n =>
                refine (Target.suspended_before_report h.orderly.exact _ hsus).resolve_right ?_
                rintro ⟨hid, hpause⟩
                cases (hlane n (mem_lane.mpr ⟨List.mem_cons_self, hid⟩)).symm.trans hpause
            | command c => exact (Target.suspended_before_command h.orderly.exact (hnot hlive') hsus).1
          exact (h.suspended (by omega) hlive' hsus').moves h.orderly (h.orderly.lively hlive') hmove
            hgives hforward
        · have hlive : w'.session.target.state ≠ .terminated := fun hover =>
            ho.ended hover thread hlets
          obtain ⟨hlive', e, rest, hevents, hsession⟩ := hopen hlive
          obtain ⟨hplace, -⟩ := h.queued (by omega) hlive'
          rw [show place - takenIn later = 0 by omega, hevents] at hplace
          obtain rfl : e = .command (.resume thread mode) := Option.some.inj hplace
          obtain ⟨task, hmem, htask⟩ := hlets
          have hagenda : w'.session.worker.agenda =
              w.session.tasksAfter (.command (.resume thread mode)) := by
            rw [hsession, Session.agenda_handle, Session.tasksAfter_withEvents]
          rw [hagenda] at hmem ⊢
          obtain ⟨-, -, hsus, -⟩ := Session.letsGo_tasksAfter hmem htask
          rw [tasksAfter_resume h.orderly.exact (hnot hlive') hsus]
          exact ⟨List.suffix_refl _, (h.suspended (by omega) hlive' hsus).moves h.orderly
            (h.orderly.lively hlive') hmove hgives hforward⟩

end Kept

/-- **The invariant holds** from the call that makes the decision on. -/
theorem kept_of_execution {w w' : World} {thread : ThreadId} {mode : Mode} {place : Nat} {p : Pause}
    {later : List Act} (h : Kept thread mode place p [] w) (hlater : Execution Moves w later w')
    (hgives : ∀ act ∈ later, act.givesUp thread = false) : Kept thread mode place p later w' := by
  refine hlater.invariant (P := fun later w' => (∀ act ∈ later, act.givesUp thread = false) →
    Kept thread mode place p later w') (fun _ => h) ?_ hgives
  intro later w act w' _ ih hm hgives
  have hkept := ih fun act hact => hgives act (List.mem_append_left _ hact)
  have hlast := hgives act (by simp)
  cases hact : act.takes with
  | false => exact hkept.untaken hm hact hlast
  | true => exact hkept.taken hm hact hlast

/-! ### The main result -/

instance (phase : Option Phase) : Decidable (Waits phase) :=
  decidable_of_iff (phase.any Job.waits = true) <| by
    cases phase with
    | none => simp [Waits]
    | some phase => cases phase <;> simp [Waits, Job.waits]

/-- The call of a thread waits, nobody has decided on its pause, and no other pause of it is queued. -/
def AwaitsDecision (w : World) (thread : ThreadId) : Prop :=
  Waits (phaseOf w.jobs thread) ∧ w.engine.slots.get? thread = some none ∧
    ∀ n ∈ lane thread w.session.queue.events, n.isPause = false

instance (w : World) (thread : ThreadId) : Decidable (w.AwaitsDecision thread) :=
  inferInstanceAs (Decidable (_ ∧ _ ∧ _))

/-- A decision is accepted while its thread is suspended, in a session that is not over. -/
theorem suspended_of_accepted {s : Session} {thread : ThreadId} {mode : Mode}
    (h : (s.resume thread mode).1 = .ok ()) :
    s.target.state ≠ .terminated ∧ s.target.stateOf thread = some .suspended := by
  unfold Session.resume at h
  split at h
  · cases h
  · next hterm =>
      refine ⟨by simpa [Session.isTerminated, Target.isTerminated] using hterm, ?_⟩
      split at h
      · cases h
      · next debugged hthread =>
          split at h
          · next hsus =>
              rw [Target.stateOf, hthread, Option.map_some]
              exact congrArg some (by simpa [DebugThread.isSuspended] using hsus)
          · cases h

/-- **Where calls wait without a bound**, a suspended thread awaits a decision. -/
theorem awaitsDecision_of_wakeful {w : World} (h : w.Wakeful) (hlive : w.session.target.state ≠ .terminated)
    {thread : ThreadId} (hsus : w.session.target.stateOf thread = some .suspended) :
    w.AwaitsDecision thread := by
  have hl : w.session.IsLive := ⟨hlive, h.uncancelled⟩
  have hon := (h.concord hl).agreesOn thread
  rw [Session.AgreesOn, hsus] at hon
  have hnil := eq_nil_of_fits_suspended hon.own hon.fits
  have hshakes := h.shakesHands thread
  unfold ShakesHands at hshakes
  rw [Target.stateOf_eq_standing] at hsus
  obtain ⟨hslot, hwaits⟩ := (hshakes.awaits hl).mp (.inl (by rw [hnil, settled_nil, hsus]))
  refine ⟨hwaits, hslot, fun n hn => ?_⟩
  rw [hnil] at hn
  cases hn

/-- Nobody gives up there. -/
theorem not_givesUp_of_wakeful {w w' : World} {later : List Act} (h : w.Wakeful)
    (hlater : Execution Moves w later w') (thread : ThreadId) :
    w'.Wakeful ∧ ∀ act ∈ later, act.givesUp thread = false := by
  refine hlater.invariant (P := fun later w' => w'.Wakeful ∧ ∀ act ∈ later, act.givesUp thread = false)
    ⟨h, fun _ hact => absurd hact List.not_mem_nil⟩ ?_
  rintro later w act w' - ⟨hw, hnone⟩ hm
  refine ⟨wakeful_moves hw hm, fun other hother => ?_⟩
  rcases List.mem_append.mp hother with hother | hother
  · exact hnone other hother
  · obtain rfl := List.mem_singleton.mp hother
    cases hm with
    | dispatch | begin | call => rfl
    | giveUp hjobs hgive =>
        rw [giveUp?_of_wakeful hw] at hgive
        cases hgive
    | @step b before after j j' hjobs hstep =>
        obtain ⟨hcall, -⟩ := callStep_of_job hstep
        generalize j.phase = phase, j'.phase = phase' at hcall
        cases hcall <;> rfl

/-- **A decision answers the pause that it was made for.** A decision on a thread was accepted while the
thread was suspended, by the last of so many pauses that were dispatched, and is queued at some place; so
many events later it is dispatched, and reaches the gate or the engine next. Then the thread never reported
another pause, and its call still waits, undecided, as it did when the decision was made. With a bound on
waiting this is so if at first the call waits, undecided, with no other pause of the thread queued, and
does not give up meanwhile. -/
theorem resume_answers_its_pause {settings : DebuggerSettings} {trace later : List Act} {w w' : World}
    {thread : ThreadId} {mode : Mode} {place : Nat} {task : Task} {rest : List Task}
    (h : Execution Moves (create settings true) trace w)
    (hok : (w.session.resume thread mode).1 = .ok ())
    (hplace : (w.session.resume thread mode).2.queue.events[place]? = some (.command (.resume thread mode)))
    (hlater : Execution Moves (w.withSession (w.session.resume thread mode).2) later w')
    (hkept : settings.resumeTimeout ≠ none →
      w.AwaitsDecision thread ∧ ∀ act ∈ later, act.givesUp thread = false)
    (htaken : takenIn later = place + 1) (hagenda : w'.session.worker.agenda = task :: rest)
    (htask : task.LetsGo thread) :
    pausesOf thread (trace ++ .call (.resume thread mode) :: later) = dispatchedPauses thread trace w ∧
      ∃ p, phaseOf w.jobs thread = some (.waiting p) ∧ phaseOf w'.jobs thread = some (.waiting p) ∧
        w'.engine.slots.get? thread = some none := by
  obtain ⟨hlive, hsus⟩ := suspended_of_accepted hok
  have ho := orderly_of_execution h
  have hcall : Moves w (.call (.resume thread mode)) (w.withSession (w.session.resume thread mode).2) :=
    .call w (.resume thread mode) nofun
  -- Without a bound on pauses, whoever is suspended waits for a decision, and does not give up.
  obtain ⟨hawaits, hgives⟩ : w.AwaitsDecision thread ∧ ∀ act ∈ later, act.givesUp thread = false := by
    by_cases hbound : settings.resumeTimeout = none
    · have hw := wakeful_of_execution hbound h
      exact ⟨awaitsDecision_of_wakeful hw hlive hsus,
        (not_givesUp_of_wakeful (wakeful_moves hw hcall) hlater thread).2⟩
    · exact hkept hbound
  obtain ⟨⟨p, hwaits⟩, hslot, hlane⟩ := hawaits
  obtain ⟨cs, -, hcs⟩ := w.session.commanded_resume thread mode
  -- The decision stands where it was queued, behind no pause of its own thread.
  have hstart : Kept thread mode place p [] (w.withSession (w.session.resume thread mode).2) := by
    refine ⟨ho.moves hcall, fun _ _ => ⟨hplace, fun n hn => hlane n ?_⟩,
      fun _ _ _ => ⟨hwaits, hslot, rfl⟩, nofun⟩
    have hmem := (mem_lane.mp hn).1
    rw [show (w.withSession (w.session.resume thread mode).2).session.queue.events =
      w.session.queue.events ++ cs.map .command from hcs.events] at hmem
    refine mem_lane.mpr ⟨?_, (mem_lane.mp hn).2⟩
    rcases List.mem_append.mp (List.mem_of_mem_take hmem) with hmem | hmem
    · exact hmem
    · obtain ⟨c, -, hc⟩ := List.mem_map.mp hmem
      cases hc
  have hletting : w'.session.Letting thread :=
    ⟨task, by rw [hagenda]; exact List.mem_cons_self, htask⟩
  obtain ⟨-, hundecided⟩ := (kept_of_execution hstart hlater hgives).handed htaken hletting
  refine ⟨?_, p, hwaits, hundecided.waits, hundecided.slot⟩
  have hdispatched : (lane thread w.session.queue.events).countP Notification.isPause = 0 :=
    List.countP_eq_zero.mpr fun n hn => by rw [hlane n hn]; exact Bool.false_ne_true
  have hsince : later.countP (Act.reportsPause thread) = 0 := hundecided.since
  rw [dispatchedPauses, hdispatched, pausesOf, List.countP_append, List.countP_cons, hsince]
  simp [Act.reportsPause, pausesOf]

/-! ### A thread that stops at its first line -/

/-- Settings with a bound on waiting. -/
def bounded : DebuggerSettings :=
  { suspendOnStartup := true, resumeTimeoutMs := 120 }

/-- The engine starts, a script is loaded, and the thread stops at the first line. -/
def halting : List Choice :=
  .begin (.ofCheckpoint ⟨1⟩ .started) :: List.replicate 2 .job ++ List.replicate 2 .dispatch ++
    .begin (.ofCheckpoint ⟨1⟩ (.load rootScript 0)) :: List.replicate 4 .job ++
    List.replicate 10 .dispatch ++ List.replicate 3 .job ++ .dispatch ::
    .begin (.ofCheckpoint ⟨1⟩ (.line rootScript 1 1 [])) :: List.replicate 4 .job ++
    List.replicate 3 .dispatch

/-- What led to the stop. -/
def halts : List Act :=
  ((create bounded true).played halting).1

/-- The world in which the thread has stopped. -/
def halted : World :=
  ((create bounded true).played halting).2

theorem execution_halted : Execution Moves (create bounded true) halts halted :=
  execution_played _ halting

/-- The world in which it was decided that the thread goes on. -/
def answered : World :=
  halted.withSession (halted.session.resume ⟨1⟩ .resume).2

/-- A decision that is dispatched at once reaches the second and last pause of the thread. -/
theorem resume_answers_its_pause_at_once :
    ∃ later w', Execution Moves answered later w' ∧
      w'.session.worker.agenda = decisionTasks ⟨1⟩ .resume ∧
      pausesOf ⟨1⟩ (halts ++ .call (.resume ⟨1⟩ .resume) :: later) = 2 ∧ Waits (phaseOf w'.jobs ⟨1⟩) := by
  have hlater := execution_played answered [.dispatch]
  have hplace : (halted.session.resume ⟨1⟩ .resume).2.queue.events[0]? =
      some (.command (.resume ⟨1⟩ .resume)) := by decide +kernel
  have hagenda : (answered.played [.dispatch]).2.session.worker.agenda =
      decisionTasks ⟨1⟩ .resume := by decide +kernel
  obtain ⟨hpauses, p, -, hphase, -⟩ := resume_answers_its_pause execution_halted (by decide +kernel)
    hplace hlater (fun _ => by decide +kernel) (by decide +kernel) hagenda rfl
  exact ⟨_, _, hlater, hagenda, hpauses.trans (by decide +kernel), p, hphase⟩

/-- The thread gives up, and the next script is loaded before the decision is dispatched. -/
def overtaking : List Choice :=
  .giveUp :: List.replicate 3 .job ++ .begin (.ofCheckpoint ⟨1⟩ (.load rootScript 0)) ::
    List.replicate 4 .job ++ List.replicate 4 .dispatch

/-- **A stale decision.** The decision that was made for the second pause of a thread is about to wake
the third one; the gate was told already. -/
theorem stale_decision : ∃ later w', Execution Moves (create bounded true) halts halted ∧
    Execution Moves answered later w' ∧
    (halted.session.resume ⟨1⟩ .resume).1 = .ok () ∧
    (halted.session.resume ⟨1⟩ .resume).2.queue.events[0]? = some (.command (.resume ⟨1⟩ .resume)) ∧
    takenIn later = 1 ∧ w'.session.worker.agenda = [.forward (.resume ⟨1⟩ .resume)] ∧
    dispatchedPauses ⟨1⟩ halts halted = 2 ∧
    pausesOf ⟨1⟩ (halts ++ .call (.resume ⟨1⟩ .resume) :: later) = 3 ∧
    ⟨1⟩ ∉ w'.session.gate.paused ∧ w'.engine.slots.get? ⟨1⟩ = some none ∧
    Waits (phaseOf w'.jobs ⟨1⟩) :=
  ⟨_, _, execution_halted, execution_played answered overtaking, by decide +kernel, by decide +kernel,
    by decide +kernel, by decide +kernel, by decide +kernel, by decide +kernel, by decide +kernel,
    by decide +kernel, by decide +kernel⟩

end World

end Pausepoint
