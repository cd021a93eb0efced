import Pausepoint.Proofs.World.Finality
import Pausepoint.Proofs.World.MoveOrEnd
import Pausepoint.Proofs.World.Wakeup

/-!
# Pausepoint.Proofs.World.Intrusion

A second call on a thread whose call waits.

The gate refuses the pause of such a call, but the engine keeps one slot for each thread. The second call
opens the slot that is open already, and drops it once it is refused. Then the first call has no slot any
more, no decision finds it, and nothing but the end of the session wakes it
(`second_pause_strands_the_first`). So a refused pause does change the engine, and the decision that comes
next is lost (`refused_pause_loses_a_decision`).

Proof shape: `Gate.Coherent` is what a gate that holds a thread is certain of, so that a second pause is
refused; `Stranded` is a call that waits without a slot. Every step of anyone keeps both, the latter for as
long as the engine is open.
-/

namespace Pausepoint

/-! ### Gates that hold threads -/

/-- Whoever is paused has announced itself, to a gate that is open and an engine that runs. -/
def Gate.Coherent (g : Gate) : Prop :=
  ∀ thread ∈ g.paused, g.closed = false ∧ g.phase = .started ∧ thread ∈ g.known

namespace Gate.Coherent

variable {g g' : Gate}

/-- **A thread that is held may report nothing**, whatever it is. -/
theorem refuses (h : g.Coherent) {thread : ThreadId} (hpaused : thread ∈ g.paused) {n : Notification}
    (hid : n.thread? = some thread) : g.accept n = .error (.pauseInFlight thread) := by
  obtain ⟨hopen, hphase, hknown⟩ := h thread hpaused
  exact accept_of_paused hid hopen hphase (.inr hknown) hpaused

/-- A gate that holds nobody. -/
theorem of_free (h : g.paused = []) : g.Coherent := by
  intro thread hmem
  rw [h] at hmem
  exact absurd hmem List.not_mem_nil

theorem release (h : g.Coherent) (thread : ThreadId) : (g.release thread).Coherent := by
  intro other hother
  exact h other (List.mem_filter.mp hother).1

theorem revoke (h : g.Coherent) (n : Notification) : (g.revoke n).Coherent := by
  unfold Gate.revoke
  split
  · exact h.release _
  · exact h

/-- **Admission keeps it.** -/
theorem accepted (h : g.Coherent) {n : Notification} (ha : g.accept n = .ok g') : g'.Coherent := by
  cases hid : n.thread? with
  | none =>
      obtain ⟨-, -, rfl⟩ | ⟨-, rfl⟩ := accept_engine hid ha
      · intro thread hmem
        obtain ⟨hopen, -, hknown⟩ := h thread hmem
        exact ⟨hopen, rfl, hknown⟩
      · exact of_free rfl
  | some id =>
      have hopen : g.closed = false := by
        unfold accept at ha
        split at ha
        · cases ha
        · next hclosed => exact Bool.eq_false_iff.mpr hclosed
      obtain ⟨hphase, -, hknown, rfl⟩ := accept_thread hid ha
      intro thread hmem
      refine ⟨hopen, hphase, ?_⟩
      rw [mem_known_admitted]
      by_cases he : thread = id
      · subst he
        cases hann : announces n with
        | true => exact .inr ⟨rfl, rfl⟩
        | false => exact .inl (hknown hann)
      · have hold : thread ∈ g.paused := by simpa [he] using hmem
        exact .inl (h thread hold).2.2

end Gate.Coherent

namespace Session

variable {s s' : Session}

theorem coherent_notify (h : s.gate.Coherent) (n : Notification) : (s.notify n).2.gate.Coherent := by
  unfold notify
  split
  · exact h
  · next gate hgate =>
      split
      · exact h.accepted hgate
      · exact (h.accepted hgate).revoke n

theorem coherent_hears (h : s.gate.Coherent) (hs : s.Hears s') : s'.gate.Coherent := by
  cases hs with
  | nothing => exact h
  | report n => exact coherent_notify h n
  | abandon thread => exact h.release thread

theorem coherent_perform (h : s.gate.Coherent) {task : Task} (hs : s.perform? = some (task, s')) :
    s'.gate.Coherent := by
  obtain ⟨rest, -, rfl⟩ := perform?_cases hs
  cases task with
  | release thread => exact h.release thread
  | releaseAll | closeGate => exact .of_free rfl
  | followUp c =>
      rw [effect, submit]
      split <;> exact h
  | callback | command | forward | closeQueue | forwardClosed | announceClosed | lastCallback | finish =>
      exact h

theorem gate_take (hs : s.take? = some s') : s'.gate = s.gate := by
  obtain ⟨-, ⟨e, rest, -, rfl⟩ | ⟨-, rfl⟩⟩ := take?_cases hs
  · cases e <;> rfl
  · rfl

theorem gate_call (s : Session) (c : ControlCall) : (c.run s).gate = s.gate := by
  by_cases hc : c = .cancel
  · subst hc
    rfl
  · obtain ⟨cs, hcs⟩ := ControlCall.commanded s c hc
    exact hcs.gate

end Session

/-! ### Calls that nobody comes between -/

/-- Where a call gets to when nobody comes between: it has returned, or it waits. -/
def Phase.alone (b : Bridge) (thread : ThreadId) (phase : Phase) : Bridge × Phase :=
  match _h : phase.advance? b thread with
  | some (b', phase') => phase'.alone b' thread
  | none => (b, phase)
termination_by phase.stepsLeft
decreasing_by exact stepsLeft_advance _h

namespace Phase

variable {b b' : Bridge} {thread : ThreadId} {phase phase' : Phase}

theorem alone_of_advance (h : phase.advance? b thread = some (b', phase')) :
    phase.alone b thread = phase'.alone b' thread := by
  rw [alone]
  split
  · next b₁ phase₁ h₁ =>
      obtain ⟨rfl, rfl⟩ := Prod.mk.inj (Option.some.inj (h₁.symm.trans h))
      rfl
  · next hnone => cases hnone.symm.trans h

theorem alone_of_stuck (h : phase.advance? b thread = none) : phase.alone b thread = (b, phase) := by
  rw [alone]
  split
  · next h₁ => cases h₁.symm.trans h
  · rfl

end Phase

/-- Who opens a slot and drops it has dropped it. -/
theorem Engine.dropSlot_openSlot (e : Engine) (thread : ThreadId) :
    (e.openSlot thread).dropSlot thread = e.dropSlot thread := by
  have hslots : (e.slots.insert thread none).erase thread = e.slots.erase thread := by
    simp [Table.insert, Table.erase]
  unfold openSlot dropSlot
  rw [hslots]

/-- **A pause of a thread that is held is refused**, and takes the slot of the thread with it. -/
theorem alone_of_paused {b : Bridge} {thread : ThreadId} {r : Request} {p : Pause}
    (hgate : b.session.gate.Coherent) (hpaused : thread ∈ b.session.gate.paused)
    (hdecide : b.engine.decide thread r = .pause p) :
    (Phase.entering r).alone b thread =
      ({ b with engine := b.engine.dropSlot thread }, .returned (.error (.pauseInFlight thread))) := by
  have hopen : b.engine.closed = none := by
    unfold Engine.decide at hdecide
    split at hdecide
    · cases hdecide
    · cases hdecide
    · assumption
  have hrefused : b.session.notify p.report = (.error (.pauseInFlight thread), b.session) := by
    unfold Session.notify
    rw [hgate.refuses hpaused (Engine.shaped_of_decide hdecide).thread?]
  have henter : (Phase.entering r).advance? b thread = some (b, .opening p) := by
    rw [Phase.advance?, hdecide]
  have hreport : (Phase.reporting p).advance? { b with engine := b.engine.openSlot thread } thread =
      some ({ b with engine := b.engine.dropSlot thread },
        .returned (.error (.pauseInFlight thread))) := by
    simp only [Phase.advance?, Bridge.notify, hrefused, Engine.dropSlot_openSlot]
    rw [if_neg]
    change b.engine.closed ≠ _
    rw [hopen]
    intro h
    cases h
  rw [Phase.alone_of_advance henter, Phase.alone_of_advance rfl, Phase.alone_of_advance hreport]
  exact Phase.alone_of_stuck rfl

namespace World

variable {w w' : World} {act : Option Act} {thread : ThreadId}

/-! ### What every step keeps -/

/-- What is certain of a world in which calls have no time limit. -/
structure Untimed (w : World) : Prop where
  gate : w.session.gate.Coherent
  distinct : (w.jobs.map Job.thread).Nodup
  unbounded : w.engine.resumeTimeout = none

theorem untimed_create {settings : DebuggerSettings} (ht : settings.resumeTimeout = none) :
    (create settings true).Untimed where
  gate := .of_free rfl
  distinct := List.nodup_nil
  unbounded := ht

/-- The sessions that steps of the dispatcher lead to. -/
theorem coherent_dispatch {reports : List Report} (h : w.session.gate.Coherent)
    (hd : w.dispatchStep? = some (w', reports)) : w'.session.gate.Coherent := by
  obtain ⟨-, -, ⟨task, session, hperform, hsession, -⟩ | ⟨-, htake, -⟩⟩ := dispatchStep?_frame hd
  · have hgate := Session.coherent_perform h hperform
    obtain hs | ⟨-, message, hs⟩ := hsession
    · rw [hs]
      exact hgate
    · rw [hs]
      exact hgate
  · rw [Session.gate_take htake]
    exact h

/-- What a step of the dispatcher does to the engine. -/
theorem engine_dispatch {reports : List Report} (hd : w.dispatchStep? = some (w', reports)) :
    w'.engine = w.engine ∨ ∃ task, w'.engine = effectOnEngine w.engine task := by
  obtain ⟨-, -, ⟨task, session, -, -, hengine⟩ | ⟨-, -, hengine⟩⟩ := dispatchStep?_frame hd
  · split at hengine
    · exact .inr ⟨task, hengine⟩
    · exact .inl hengine
  · exact .inl hengine

theorem untimed_anyStep (h : w.Untimed) (hstep : AnyStep w act w') : w'.Untimed := by
  cases hstep with
  | dispatch hd =>
      refine ⟨coherent_dispatch h.gate hd, ?_, ?_⟩
      · rw [(dispatchStep?_frame hd).2.1.threads]
        exact h.distinct
      · obtain he | ⟨task, he⟩ := engine_dispatch hd
        · rw [he]
          exact h.unbounded
        · rw [he, Engine.timeout_effect]
          exact h.unbounded
  | step hjobs hj =>
      obtain ⟨hcall, hthread⟩ := callStep_of_job hj
      refine ⟨?_, nodup_advanced hjobs hthread h.distinct, ?_⟩
      · rw [session, bridge_advanced]
        exact Session.coherent_hears h.gate (hears_of_callStep hcall)
      · rw [engine, bridge_advanced, hcall.timeout]
        exact h.unbounded
  | giveUp hjobs hj =>
      obtain ⟨p, milliseconds, -, hbound, -⟩ := giveUp?_cases hj
      cases h.unbounded.symm.trans hbound
  | @begin j nextHeap hbegins hnew =>
      have hbridge : ({ w with nextHeap }.begin j).bridge = w.bridge := bridge_begin _ j
      refine ⟨?_, ?_, ?_⟩
      · rw [session, hbridge]
        exact h.gate
      · exact nodup_begin hnew h.distinct
      · rw [engine, hbridge]
        exact h.unbounded
  | call c =>
      refine ⟨?_, h.distinct, h.unbounded⟩
      change (c.run w.session).gate.Coherent
      rw [Session.gate_call]
      exact h.gate
  | report n => exact ⟨Session.coherent_notify h.gate n, h.distinct, h.unbounded⟩
  | abandonPause id => exact ⟨h.gate.release id, h.distinct, h.unbounded⟩
  | interrupt traps held => exact ⟨h.gate, h.distinct, h.unbounded⟩

/-- An engine that is open was open before. -/
theorem open_of_anyStep (hstep : AnyStep w act w') (hopen : w'.engine.closed = none) :
    w.engine.closed = none := by
  cases hstep with
  | dispatch hd =>
      obtain he | ⟨task, he⟩ := engine_dispatch hd
      · rw [← he]
        exact hopen
      · refine Option.not_isSome_iff_eq_none.mp ?_
        intro hsome
        have hstays := w.engine.isSome_closed_effect task (.inr hsome)
        rw [← he, hopen] at hstays
        cases hstays
  | step hjobs hj =>
      rw [engine, bridge_advanced, (callStep_of_job hj).1.frame.2] at hopen
      exact hopen
  | giveUp hjobs hj =>
      obtain ⟨p, milliseconds, -, -, -, rfl, -⟩ := giveUp?_cases hj
      rw [engine, bridge_advanced] at hopen
      exact hopen
  | @begin j nextHeap =>
      have hbridge : ({ w with nextHeap }.begin j).bridge = w.bridge := bridge_begin _ j
      rw [engine, hbridge] at hopen
      exact hopen
  | call | report | abandonPause | interrupt => exact hopen

/-! ### A call without a slot -/

/-- The call of the thread waits, and has no slot. -/
structure Stranded (thread : ThreadId) (w : World) : Prop where
  slot : w.engine.slots.get? thread = none
  waits : Waits (phaseOf w.jobs thread)

/-- Who waits makes no step before something has ended the wait. -/
theorem wakening_of_callStep {b b' : Bridge} {phase phase' : Option Phase} (hwaits : Waits phase)
    (hcall : CallStep b thread phase b' phase') : b.engine.wakening? thread ≠ none := by
  obtain ⟨p, rfl⟩ := hwaits
  intro hnone
  cases hcall with
  | takeUp hdecided => cases hnone.symm.trans hdecided
  | closed hclosed => cases hnone.symm.trans hclosed

/-- No decision finds a thread without a slot. -/
theorem slot_effect {e : Engine} (h : e.slots.get? thread = none) (task : Task) :
    (effectOnEngine e task).slots.get? thread = none := by
  by_cases hresume : ∃ mode, task = .forward (.resume thread mode)
  · obtain ⟨mode, rfl⟩ := hresume
    have happly : e.apply (.resume thread mode) = e := by
      unfold Engine.apply
      dsimp only
      rw [h]
    unfold effectOnEngine
    dsimp only
    split
    · exact h
    · rw [happly]
      exact h
  · rw [e.slots_effect fun mode he => hresume ⟨mode, he⟩]
    exact h

/-- **Nobody wakes it.** A call that waits without a slot does so after every step of anyone that does not
close the engine. -/
theorem stranded_anyStep (hu : w.Untimed) (h : w.Stranded thread) (hstep : AnyStep w act w')
    (hopen : w'.engine.closed = none) : w'.Stranded thread := by
  have hbefore := open_of_anyStep hstep hopen
  cases hstep with
  | dispatch hd =>
      refine ⟨?_, ?_⟩
      · obtain he | ⟨task, he⟩ := engine_dispatch hd
        · rw [he]
          exact h.slot
        · rw [he]
          exact slot_effect h.slot task
      · rw [(dispatchStep?_frame hd).2.1.phaseOf]
        exact h.waits
  | @step b before after j j' hjobs hj =>
      obtain ⟨hcall, hthread⟩ := callStep_of_job hj
      -- The thread itself is held by its empty slot.
      have hother : thread ≠ j.thread := by
        intro he
        have hmem : j ∈ w.jobs := by simp [hjobs]
        have hwaits := h.waits
        rw [he, phaseOf_of_mem hu.distinct hmem] at hwaits
        refine wakening_of_callStep hwaits hcall ?_
        change w.engine.wakening? j.thread = none
        unfold Engine.wakening?
        rw [← he, h.slot, hbefore]
      refine ⟨?_, ?_⟩
      · rw [engine, bridge_advanced, slots_step hcall hother]
        exact h.slot
      · rw [phaseOf_advanced hjobs hthread (phase_of_result hj) hu.distinct, if_neg hother]
        exact h.waits
  | giveUp hjobs hj =>
      obtain ⟨p, milliseconds, -, hbound, -⟩ := giveUp?_cases hj
      cases hu.unbounded.symm.trans hbound
  | @begin j nextHeap hbegins hnew =>
      have hbridge : ({ w with nextHeap }.begin j).bridge = w.bridge := bridge_begin _ j
      refine ⟨?_, ?_⟩
      · rw [engine, hbridge]
        exact h.slot
      · rw [phaseOf_begin nextHeap hbegins.phase hnew]
        exact h.waits
  | call | report | abandonPause | interrupt =>
      exact { slot := h.slot, waits := h.waits }

/-- The same of every run. -/
theorem stranded_of_execution {start : World} {trace : List (Option Act)}
    (hrun : Execution AnyStep start trace w) (hopen : w.engine.closed = none) (hu : start.Untimed)
    (h : start.Stranded thread) : w.Stranded thread := by
  have hall : w.Untimed ∧ (w.engine.closed = none → w.Stranded thread) := by
    refine hrun.state_invariant (P := fun w => w.Untimed ∧ (w.engine.closed = none → w.Stranded thread))
      ⟨hu, fun _ => h⟩ ?_
    intro s label s' ih hstep
    refine ⟨untimed_anyStep ih.1 hstep, ?_⟩
    intro hnext
    exact stranded_anyStep ih.1 (ih.2 (open_of_anyStep hstep hnext)) hstep hnext
  exact hall.2 hopen

/-! ### The main result -/

/-- **A second pause strands the first.** In every run of a session without a time limit, whenever the call
of a thread waits and the gate holds the thread: a further call on the thread that is a pause is refused,
the session is as it was, and of the engine nothing but the slot of the thread is gone. From then on the
first call waits whatever is decided, for as long as the engine is open and no third call begins. -/
theorem second_pause_strands_the_first {settings : DebuggerSettings} (ht : settings.resumeTimeout = none)
    {trace : List (Option Act)} (hpast : Execution AnyStep (create settings true) trace w)
    (hwaits : Waits (phaseOf w.jobs thread)) (hpaused : thread ∈ w.session.gate.paused) {r : Request}
    {p : Pause} (hdecide : w.engine.decide thread r = .pause p) :
    ∃ after : Bridge,
      (Phase.entering r).alone w.bridge thread = (after, .returned (.error (.pauseInFlight thread))) ∧
      after.session = w.session ∧ after.engine = w.engine.dropSlot thread ∧
      ∀ {later : List (Option Act)} {w' : World}, Execution AnyStep { w with bridge := after } later w' →
        w'.engine.closed = none → Waits (phaseOf w'.jobs thread) := by
  have hu : w.Untimed := hpast.state_invariant (untimed_create ht) untimed_anyStep
  refine ⟨_, alone_of_paused hu.gate hpaused hdecide, rfl, rfl, ?_⟩
  intro later w' hlater hopen
  refine (stranded_of_execution hlater hopen ⟨hu.gate, hu.distinct, hu.unbounded⟩ ⟨?_, hwaits⟩).waits
  change (w.engine.dropSlot thread).slots.get? thread = none
  rw [slots_dropSlot, if_pos rfl]

/-! ### A decision that is lost -/

/-- A script is about to be loaded. -/
def further : Request :=
  .load { id := ⟨2⟩, title := "lib", source := "print 2", resource := some "lib" } 1

/-- The world once the control side has decided on thread 1, and everyone rests. -/
def afterResume (w : World) : World :=
  ((w.withSession (ControlCall.run w.session (.resume ⟨1⟩ .resume))).settleFrom [] 12).1

theorem execution_stoppedOnStartup :
    ∃ trace, Execution AnyStep (create { suspendOnStartup := true } true) trace stoppedOnStartup := by
  have hbegun := Execution.single (AnyStep.begin (w := create { suspendOnStartup := true } true)
    (j := .ofCheckpoint ⟨1⟩ .started) 1 (.inl ⟨_, rfl⟩) (by decide))
  obtain ⟨first, hstarted, -⟩ := execution_anyStep_settleFrom hbegun 4
  obtain ⟨second, hloaded, -⟩ := execution_anyStep_settleFrom
    (hstarted.next (.begin (w := started) (j := .ofCheckpoint ⟨1⟩ (.load rootScript 0))
      started.nextHeap (.inl ⟨_, rfl⟩) (by decide +kernel))) 18
  obtain ⟨third, hstopped, -⟩ := execution_anyStep_settleFrom
    (hloaded.next (.begin (w := loaded) (j := .ofCheckpoint ⟨1⟩ (.line rootScript 1 1 []))
      loaded.nextHeap (.inl ⟨_, rfl⟩) (by decide +kernel))) 7
  exact ⟨_, hstopped⟩

/-- **A refused pause is not without effect.** A script is held at its first line, and its slot is open. As
it is, a decision lets it go on. If meanwhile a script is loaded on the same thread, which is refused, then
the same decision is accepted and the script is held for ever. -/
theorem refused_pause_loses_a_decision :
    stoppedOnStartup.session.target.state = .running ∧ stoppedOnStartup.engine.closed = none ∧
      Waits (phaseOf stoppedOnStartup.jobs ⟨1⟩) ∧
      stoppedOnStartup.engine.slots.get? ⟨1⟩ = some none ∧
      stoppedOnStartup.afterResume.jobs.isEmpty = true ∧
      ∃ after : Bridge,
        (Phase.entering further).alone stoppedOnStartup.bridge ⟨1⟩ =
          (after, .returned (.error (.pauseInFlight ⟨1⟩))) ∧
        after.engine.slots.get? ⟨1⟩ = none ∧ (after.session.resume ⟨1⟩ .resume).1 = .ok () ∧
        Waits (phaseOf ({ stoppedOnStartup with bridge := after } : World).afterResume.jobs ⟨1⟩) := by
  obtain ⟨trace, hpast⟩ := execution_stoppedOnStartup
  have hwaits : Waits (phaseOf stoppedOnStartup.jobs ⟨1⟩) := ⟨_, rfl⟩
  have hpaused : (⟨1⟩ : ThreadId) ∈ stoppedOnStartup.session.gate.paused := by decide +kernel
  obtain ⟨after, hreply, hsession, hengine, hstranded⟩ :=
    second_pause_strands_the_first (r := further) rfl hpast hwaits hpaused rfl
  refine ⟨by decide +kernel, by decide +kernel, hwaits, by decide +kernel, by decide +kernel, after, hreply,
    ?_, ?_, ?_⟩
  · rw [hengine, slots_dropSlot, if_pos rfl]
  · rw [hsession]
    decide +kernel
  · have hafter : after = ⟨stoppedOnStartup.session, stoppedOnStartup.engine.dropSlot ⟨1⟩⟩ := by
      rw [← hengine, ← hsession]
    have hdecided := Execution.single
      (AnyStep.call ({ stoppedOnStartup with bridge := after } : World) (.resume ⟨1⟩ .resume))
    obtain ⟨acts, hlater, -⟩ := execution_anyStep_settleFrom hdecided 12
    refine hstranded hlater ?_
    rw [hafter]
    decide +kernel

end World

end Pausepoint
