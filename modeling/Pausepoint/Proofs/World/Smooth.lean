import Pausepoint.Proofs.World.Course

/-!
# Pausepoint.Proofs.World.Smooth

The run of a script whose reports are never refused.

`Smooth` is the invariant of the only job of a world, as long as its run has not come to its end: the run is
on its course (`OnCourse`), and no decision is stale (`Unstale`). The gate knows of a pause only while its
call waits or is about to give it up, and a decision is in the slot only once the gate has forgotten the
pause.

This holds with pauses that are given up, after which a decision may still be queued. It takes one
thing for granted: no decision is handed over between the opening of a slot and the report.
-/

namespace Pausepoint

open Pausepoint.Language

/-! ### Decisions that are not stale -/

/-- The call has a slot and has not reported its pause. -/
def Reports (phase : Option Phase) : Prop :=
  ∃ p, phase = some (.reporting p)

/-- The gate may know of the pause of the call. -/
def Pausing (phase : Option Phase) : Prop :=
  Waits phase ∨ ∃ milliseconds, phase = some (.abandoning milliseconds)

/-- The call has no slot, and the gate knows of no pause of it. -/
def Aside (phase : Option Phase) : Prop :=
  ¬ Pausing phase ∧ ¬ Reports phase

/-- No decision on a thread is stale. `paused` says that the gate knows of a pause, `handing` that a
decision is on its way from the target to the engine, and `releasing` that the gate is told of it
next. -/
structure Unstale (paused handing releasing : Prop) (slot : Option (Option Mode))
    (phase : Option Phase) : Prop where
  pausing : paused → Pausing phase
  decided : ∀ mode, slot = some (some mode) → Waits phase ∧ ¬ paused
  slotted : slot = some none → Waits phase ∨ Reports phase
  released : paused → handing → releasing

theorem aside_none : Aside none := by
  refine ⟨?_, ?_⟩
  · rintro (⟨p, hp⟩ | ⟨milliseconds, hp⟩) <;> cases hp
  · rintro ⟨p, hp⟩
    cases hp

/-- Where a call is aside. -/
def Phase.isAside : Phase → Bool
  | .entering _ | .opening _ | .confirming _ | .excusing _ | .returned _ => true
  | .reporting _ | .waiting _ | .abandoning _ => false

theorem aside_of_isAside {phase : Phase} (h : phase.isAside = true) : Aside (some phase) := by
  refine ⟨?_, ?_⟩
  · rintro (⟨p, hp⟩ | ⟨milliseconds, hp⟩) <;> cases hp <;> cases h
  · rintro ⟨p, hp⟩
    cases hp
    cases h

namespace Unstale

variable {paused handing releasing handing' releasing' : Prop} {slot : Option (Option Mode)}
  {phase phase' : Option Phase}

/-- No pause is known and no slot is there. -/
theorem fresh (hpaused : ¬ paused) : Unstale paused handing releasing none phase where
  pausing hp := absurd hp hpaused
  decided := nofun
  slotted := nofun
  released hp := absurd hp hpaused

theorem not_paused (h : Unstale paused handing releasing slot phase) (ha : Aside phase) : ¬ paused :=
  fun hp => ha.1 (h.pausing hp)

theorem slot_eq_none (h : Unstale paused handing releasing slot phase) (ha : Aside phase) :
    slot = none := by
  cases slot with
  | none => rfl
  | some content =>
      cases content with
      | none => exact ((h.slotted rfl).elim (fun hw => ha.1 (.inl hw)) ha.2).elim
      | some mode => exact (ha.1 (.inl (h.decided mode rfl).1)).elim

/-- A step from one such place to another. -/
theorem aside (h : Unstale paused handing releasing slot phase) (ha : Aside phase) :
    Unstale paused handing releasing slot phase' := by
  rw [h.slot_eq_none ha]
  exact fresh (h.not_paused ha)

theorem openSlot (h : Unstale paused handing releasing slot phase) (ha : Aside phase) (p : Pause) :
    Unstale paused handing releasing (some none) (some (.reporting p)) where
  pausing hp := absurd hp (h.not_paused ha)
  decided := nofun
  slotted _ := .inr ⟨p, rfl⟩
  released hp := absurd hp (h.not_paused ha)

/-- The pause is reported while no decision is on its way. -/
theorem report {p : Pause} (h : Unstale paused handing releasing slot (some (.reporting p)))
    (hhanding : ¬ handing) : Unstale True handing releasing slot (some (.waiting p)) where
  pausing _ := .inl ⟨p, rfl⟩
  decided mode hs := by
    obtain ⟨⟨q, hq⟩, -⟩ := h.decided mode hs
    cases hq
  slotted _ := .inl ⟨p, rfl⟩
  released _ hh := absurd hh hhanding

/-- The wait is over by a decision. -/
theorem takeUp {mode : Mode} (h : Unstale paused handing releasing (some (some mode)) phase) :
    Unstale paused handing releasing none phase' :=
  fresh (h.decided mode rfl).2

/-- The call gives up. -/
theorem giveUp (h : Unstale paused handing releasing slot phase) (milliseconds : Nat) :
    Unstale paused handing releasing none (some (.abandoning milliseconds)) where
  pausing _ := .inr ⟨milliseconds, rfl⟩
  decided := nofun
  slotted := nofun
  released := h.released

/-- The gate forgets the pause that was given up. -/
theorem abandon {milliseconds : Nat}
    (h : Unstale paused handing releasing slot (some (.abandoning milliseconds))) :
    Unstale False handing' releasing' slot phase' := by
  have hslot : slot = none := by
    cases slot with
    | none => rfl
    | some content =>
        cases content with
        | none =>
            rcases h.slotted rfl with ⟨p, hp⟩ | ⟨p, hp⟩
            · cases hp
            · cases hp
        | some mode =>
            obtain ⟨⟨p, hp⟩, -⟩ := h.decided mode rfl
            cases hp
  rw [hslot]
  exact fresh id

/-- The dispatcher comes to another place. -/
theorem dispatch (h : Unstale paused handing releasing slot phase)
    (hreleased : paused → handing' → releasing') : Unstale paused handing' releasing' slot phase :=
  { h with released := hreleased }

/-- The gate forgets the pause. -/
theorem release (h : Unstale paused handing releasing slot phase) :
    Unstale False handing' releasing' slot phase where
  pausing := False.elim
  decided mode hs := ⟨(h.decided mode hs).1, id⟩
  slotted := h.slotted
  released := False.elim

/-- A decision is handed over, unless a call reports at that moment. -/
theorem hand (h : Unstale paused handing releasing (some none) phase) (hpaused : ¬ paused)
    (hreports : ¬ Reports phase) (mode : Mode) :
    Unstale paused handing' releasing' (some (some mode)) phase where
  pausing hp := absurd hp hpaused
  decided _ _ := ⟨(h.slotted rfl).resolve_right hreports, hpaused⟩
  slotted := nofun
  released hp := absurd hp hpaused

end Unstale

/-! ### The invariant -/

/-- **The invariant** of a job of a thread, by the checkpoints of its run that are to come. -/
structure Smooth (thread : ThreadId) (b : Bridge) (points : List Checkpoint) (phase : Option Phase) :
    Prop extends OnCourse thread b points phase where
  unstale : Unstale (thread ∈ b.session.gate.paused) (b.session.Handing thread)
    (b.session.worker.agenda.head? = some (.release thread)) (b.engine.slots.get? thread) phase

/-- A decision without a slot that waits for it is ignored. -/
theorem World.ignored_resume {e : Engine} {thread : ThreadId} (mode : Mode)
    (h : e.slots.get? thread ≠ some none) : effectOnEngine e (.forward (.resume thread mode)) = e := by
  have hne : Command.resume thread mode ≠ marker := nofun
  rw [effectOnEngine, if_neg hne, Engine.apply]
  split
  · next hslot => exact absurd hslot h
  · rfl

namespace Smooth

variable {thread : ThreadId} {b b' : Bridge} {point : Checkpoint} {points : List Checkpoint}
  {phase phase' : Phase}

theorem not_paused_of_reporting {all : List Checkpoint} {p : Pause}
    (h : Smooth thread b all (some (.reporting p))) : thread ∉ b.session.gate.paused := by
  intro hp
  obtain ⟨q, hq⟩ | ⟨milliseconds, hq⟩ := h.unstale.pausing hp
  · cases hq
  · cases hq

/-- **No report is refused.** -/
theorem notify_report {p : Pause} (h : Smooth thread b (point :: points) (some (.reporting p))) :
    (b.session.notify p.report).1 = .ok () ∧
      (b.session.notify p.report).2.gate = b.session.gate.admitted p.report thread :=
  (h.toOnCourse.notify_report.resolve_right fun hrefused => h.not_paused_of_reporting hrefused.1).2

/-- A report that a thread goes on makes no decision stale. -/
theorem unstale_resumed {all : List Checkpoint} (h : Smooth thread b all (some phase)) (mode : Mode)
    (haside : phase.isAside = true) (next : Option Phase) :
    let b' := b.mention (.resumed thread mode)
    Unstale (thread ∈ b'.session.gate.paused) (b'.session.Handing thread)
      (b'.session.worker.agenda.head? = some (.release thread)) (b'.engine.slots.get? thread) next := by
  obtain ⟨-, hworker, -, -⟩ := Session.notify_frame b.session (.resumed thread mode)
  dsimp only
  rw [Bridge.session_mention, Session.gate_notify_resumed, Session.handing_of_worker hworker, hworker]
  exact h.unstale.aside (aside_of_isAside haside)

/-- **A step of a call** that makes no decision stale. -/
theorem call (h : Smooth thread b (point :: points) (some phase))
    (hclash : Reports (some phase) → ¬ b.session.Handing thread)
    (hcall : CallStep b thread (some phase) b' (some phase')) :
    Smooth thread b' (point :: points) (some phase') := by
  rcases h.toOnCourse.call hcall with hnext | ⟨⟨p, rfl⟩, hpaused, -⟩
  · refine ⟨hnext, ?_⟩
    -- A step from one place aside to another leaves neither a slot nor a pause behind.
    have hside (haside : phase.isAside = true) :=
      (h.unstale.aside (aside_of_isAside haside) : Unstale _ _ _ _ (some phase'))
    cases hcall with
    | refuse | pass | pause => exact hside rfl
    | openSlot p =>
        rw [World.slots_openSlot, if_pos rfl]
        exact h.unstale.openSlot (aside_of_isAside rfl) p
    | @report p hn =>
        obtain ⟨-, hworker, -, -⟩ := Session.notify_frame b.session p.report
        obtain ⟨-, -, hshape, -⟩ := h.underway nofun
        have hpaused : thread ∈ (b.session.notify p.report).2.gate.paused := by
          obtain ⟨-, hgate⟩ := h.notify_report
          rw [hgate, Gate.mem_paused_admitted]
          exact .inr ⟨hshape.isPause, rfl⟩
        rw [Bridge.session_mention, eq_true hpaused, Session.handing_of_worker hworker, hworker]
        exact h.unstale.report (hclash ⟨p, rfl⟩)
    | @unreported p cause hn =>
        obtain ⟨hok, -⟩ := h.notify_report
        cases hn.symm.trans hok
    | @takeUp p mode hwake =>
        have hdecided := h.unstale
        rw [Engine.decided_of_wakening hwake] at hdecided
        rw [(World.takeUp_frame b.engine thread p mode).1, World.slots_dropSlot, if_pos rfl]
        exact hdecided.takeUp
    | @closed p c hwake => cases h.isOpen.symm.trans (Engine.closed_of_wakening hwake)
    | confirm mode => exact h.unstale_resumed mode rfl _
    | abandon milliseconds =>
        have hpaused : ¬ thread ∈ (b.session.abandonPause thread).2.gate.paused := by
          show thread ∉ (b.session.gate.release thread).paused
          rw [Gate.mem_paused_release]
          exact fun hp => hp.2 rfl
        rw [eq_false hpaused]
        exact h.unstale.abandon
    | excuse milliseconds => exact h.unstale_resumed .clientRequest rfl _
  · exact absurd hpaused h.not_paused_of_reporting

/-- A call gives up, which is a step of its own. -/
theorem giveUp {all : List Checkpoint} {p : Pause} (h : Smooth thread b all (some (.waiting p)))
    (milliseconds : Nat) :
    Smooth thread { b with engine := (b.engine.dropSlot thread).dropStep thread } all
      (some (.abandoning milliseconds)) where
  toOnCourse := h.toOnCourse.giveUp milliseconds
  unstale := by
    show Unstale _ _ _ ((b.engine.dropSlot thread).slots.get? thread) _
    rw [World.slots_dropSlot, if_pos rfl]
    exact h.unstale.giveUp milliseconds

/-- A call begins. -/
theorem begin (h : Smooth thread b (point :: points) none) :
    Smooth thread (Job.begin b point).1 (point :: points) (some (Job.begin b point).2) ∨
      point = .ended ∧ points = [] ∧ ∃ reply, (Job.begin b point).2 = .returned reply := by
  refine h.toOnCourse.begin.imp_left ?_
  rintro ⟨hpaused, hnext⟩
  refine ⟨hnext, ?_⟩
  have hslots : (Job.begin b point).1.engine.slots.get? thread = none := by
    rw [← h.unstale.slot_eq_none aside_none]
    cases point with
    | started | load | line => rfl
    | ended =>
        simp only [Job.begin, Bridge.engineTerminated]
        split <;> rfl
  rw [hpaused, hslots]
  exact .fresh (h.unstale.not_paused aside_none)

/-- A call returned, and the run goes on as it does by consent. -/
theorem leave {reply : Reply} (h : Smooth thread b (point :: points) (some (.returned reply))) :
    point.Harmless reply ∧ Smooth thread b points none := by
  obtain ⟨hharmless, hnext⟩ := h.toOnCourse.leave
  exact ⟨hharmless, hnext, h.unstale.aside (aside_of_isAside rfl)⟩

variable {all : List Checkpoint} {at? : Option Phase}

/-- The control side makes a call that ends nothing. -/
theorem commanded (h : Smooth thread b all at?) {session : Session} {cs : List Command}
    (hc : b.session.Commanded session cs) (hmild : ∀ c ∈ cs, c.IsMild) :
    Smooth thread { b with session } all at? where
  toOnCourse := h.toOnCourse.commanded hc hmild
  unstale := by
    show Unstale (thread ∈ session.gate.paused) (session.Handing thread) _ _ _
    rw [hc.gate, Session.handing_of_worker hc.worker, hc.worker]
    exact h.unstale

/-- The dispatcher takes an event. -/
theorem take (h : Smooth thread b all at?) {session : Session} (hs : b.session.take? = some session) :
    Smooth thread { b with session } all at? := by
  refine ⟨h.toOnCourse.take hs, ?_⟩
  obtain ⟨-, e, rest, -, rfl⟩ := Session.take?_open h.peaceful.queue_open h.peaceful.uncancelled hs
  have hfirst (hh : ((b.session.withEvents rest).handle e).Handing thread) :
      ((b.session.withEvents rest).handle e).worker.agenda.head? = some (.release thread) := by
    obtain ⟨mode, hmode⟩ := hh
    rcases Session.forwards_handle b.session rest e with hnil | ⟨c, rfl, hdeliver, hone⟩
    · rw [hnil] at hmode
      cases hmode
    · rw [hone] at hmode
      obtain rfl := List.mem_singleton.mp hmode
      rw [Session.agenda_handle, Session.tasksAfter_withEvents, Session.tasksAfter, commandTasks,
        if_pos hdeliver]
      rfl
  have hgate : ((b.session.withEvents rest).handle e).gate = b.session.gate := by
    rw [Session.handle_eq]
    rfl
  show Unstale (thread ∈ ((b.session.withEvents rest).handle e).gate.paused) _ _ _ _
  rw [hgate]
  exact h.unstale.dispatch fun _ => hfirst

/-- **The dispatcher does a task**, which hands nothing over while the call reports. -/
theorem perform (h : Smooth thread b all at?) (hclash : Reports at? → ¬ b.session.Handing thread)
    {task : Task} {session : Session} (hs : b.session.perform? = some (task, session)) :
    Smooth thread { session, engine := World.effectOnEngine b.engine task } all at? := by
  refine ⟨h.toOnCourse.perform hs, ?_⟩
  have hmild := h.mild_of_perform hs
  have hhanding (hh : session.Handing thread) : b.session.Handing thread := by
    obtain ⟨mode, hmode⟩ := hh
    exact ⟨mode, by rw [Session.forwards_perform hs]; exact List.mem_append_right _ hmode⟩
  obtain ⟨rest, hagenda, hsession⟩ := Session.perform?_cases hs
  -- Unless the gate is told first, it knows of no pause that a decision is on its way for.
  have hlast (hne : task ≠ .release thread) (hp : thread ∈ b.session.gate.paused) :
      ¬ b.session.Handing thread := by
    intro hh
    have hhead := h.unstale.released hp hh
    rw [hagenda] at hhead
    exact hne (Option.some.inj hhead)
  have hquiet (hne : task ≠ .release thread) (hgate : session.gate = b.session.gate)
      (hslot : (World.effectOnEngine b.engine task).slots.get? thread = b.engine.slots.get? thread) :
      Unstale (thread ∈ session.gate.paused) (session.Handing thread)
        (session.worker.agenda.head? = some (.release thread))
        ((World.effectOnEngine b.engine task).slots.get? thread) at? := by
    rw [hslot, hgate]
    exact h.unstale.dispatch fun hp hh => absurd (hhanding hh) (hlast hne hp)
  cases task with
  | callback | command => exact hquiet nofun (by rw [hsession]; rfl) rfl
  | followUp c =>
      obtain ⟨cs, -, hc, -⟩ := (b.session.withAgenda rest).commanded_submit c
      exact hquiet nofun (by rw [hsession]; exact hc.gate) rfl
  | release id =>
      have hgate : session.gate = b.session.gate.release id := by
        rw [hsession]
        rfl
      show Unstale (thread ∈ session.gate.paused) _ _ _ _
      rw [hgate, Gate.mem_paused_release]
      by_cases he : thread = id
      · have hnot : ¬ (thread ∈ b.session.gate.paused ∧ thread ≠ id) := fun hp => hp.2 he
        rw [eq_false hnot]
        exact h.unstale.release
      · rw [propext (and_iff_left he)]
        refine h.unstale.dispatch fun hp hh => absurd (hhanding hh) (hlast ?_ hp)
        exact fun htask => he (Task.release.inj htask).symm
  | forward c =>
      have hgate : session.gate = b.session.gate := by
        rw [hsession]
        rfl
      by_cases hmode : ∃ mode, c = .resume thread mode
      · obtain ⟨mode, rfl⟩ := hmode
        have hh : b.session.Handing thread :=
          ⟨mode, by rw [Session.forwards_perform hs]; exact List.mem_append_left _ List.mem_cons_self⟩
        by_cases hslot : b.engine.slots.get? thread = some none
        · have hold := h.unstale
          rw [hslot] at hold
          dsimp only
          rw [hgate, World.apply_resume mode hslot]
          exact hold.hand (fun hp => hlast nofun hp hh) (fun hreports => hclash hreports hh) mode
        · exact hquiet nofun hgate (by rw [World.ignored_resume mode hslot])
      · obtain ⟨-, -, hslots⟩ := World.apply_frame b.engine (Command.IsMild.ends_nothing hmild)
        exact hquiet nofun hgate (hslots thread fun mode he => hmode ⟨mode, he⟩)
  | releaseAll | lastCallback | closeQueue | closeGate | forwardClosed | announceClosed | finish =>
      exact hmild.elim

end Smooth

/-! ### Steps of the job -/

variable {b b' : Bridge} {j j' : Job}

/-- **A step of the job**: its run goes on as if it were alone. -/
theorem Smooth.job (hsteady : j.run.Steady) (h : Smooth j.thread b j.run.checkpoints j.phase)
    (hclash : Reports j.phase → ¬ b.session.Handing j.thread) (hstep : j.advance? b = some (b', j')) :
    j'.run.Steady ∧ j'.run.undisturbed = j.run.undisturbed ∧
      (Smooth j.thread b' j'.run.checkpoints j'.phase ∨ j'.Ending) := by
  obtain ⟨point, heap, resume, hrun, ⟨hphase, rfl, rfl⟩ | ⟨phase, phase', hphase, hadvance, rfl⟩ |
    ⟨reply, hphase, rfl, rfl⟩⟩ := Job.advance?_cases hstep
  · rw [hphase, hrun] at h
    refine ⟨hsteady, rfl, ?_⟩
    show Smooth _ _ j.run.checkpoints (some (Job.begin b point).2) ∨ _
    rw [hrun]
    refine h.begin.imp_right ?_
    rintro ⟨rfl, hend, reply, hreply⟩
    refine ⟨?_, reply, congrArg some hreply⟩
    show j.run.checkpoints = _
    rw [hrun, Run.checkpoints, hend]
  · rw [hphase, hrun] at h
    rw [hphase] at hclash
    refine ⟨hsteady, rfl, .inl ?_⟩
    show Smooth _ _ j.run.checkpoints _
    rw [hrun]
    exact h.call hclash (callStep_of_phase hadvance)
  · rw [hphase, hrun] at h
    obtain ⟨hreply, hleave⟩ := h.leave
    rw [hrun] at hsteady
    have hsame : resume reply = resume (.ok ()) := hsteady.1 reply hreply
    dsimp only
    rw [hsame, hrun]
    exact ⟨hsteady.2, rfl, .inl hleave⟩

end Pausepoint
