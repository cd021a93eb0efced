import Pausepoint.Proofs.Session.Display
import Pausepoint.Proofs.Session.Lifecycle
import Pausepoint.Proofs.Session.EndsNothing

/-!
# Pausepoint.Proofs.Session.Parting

How a session comes to its end once its engine has reported its own.

A session stands (`Session.Stands`) until an event that ends it is taken: nothing on its agenda closes
anything or takes leave of the listener. One that is over has nobody suspended (`Session.IsSilent`).
`Session.Parting` says that a session is on its way from the one to the other: the report of the engine's end
waits in its queue. It survives whatever is reported and whatever the dispatcher does, requests to end
included.
-/

namespace Pausepoint

/-- A task that closes the session, or takes leave of the listener. -/
def Task.Parts : Task → Prop
  | .closeQueue | .closeGate | .finish _ | .lastCallback _ | .callback (.sessionTerminated _) => True
  | .callback .sessionCreated | .callback (.threadCreated _) | .callback (.threadStateChanged ..)
  | .callback (.stackFramesChanged _) | .release _ | .releaseAll | .followUp _ | .command _ | .forward _
  | .forwardClosed | .announceClosed => False

/-- The end of a target that is not over leaves nobody suspended. -/
theorem Target.not_suspended_terminate {t : Target} (h : t.state ≠ .terminated) (fault : Option Fault)
    (id : ThreadId) : (t.terminate fault).2.stateOf id ≠ some .suspended := by
  intro hsuspended
  unfold terminate at hsuspended
  rw [if_neg (by simpa [isTerminated] using h)] at hsuspended
  obtain ⟨ended, hended, hstate⟩ := exists_thread_of_stateOf hsuspended
  have hget := Registry.get?_terminateAll t.registry id
  rw [show t.registry.terminateAll.2.get? id = some ended from hended] at hget
  obtain ⟨before, -, rfl⟩ := Option.map_eq_some_iff.mp hget.symm
  cases hstate

namespace Session

variable {s s' : Session}

/-- **A session that goes on.** -/
structure Stands (s : Session) : Prop where
  live : s.IsLive
  fault : s.target.fault = none
  queue_open : s.queue.closed = false
  gate_open : s.gate.closed = false
  awake : s.worker.exit = none
  agenda : ∀ task ∈ s.worker.agenda, ¬ task.Parts

/-- A session that is over, with nobody suspended. -/
structure IsSilent (s : Session) : Prop where
  state : s.target.state = .terminated
  threads : ∀ id, s.target.stateOf id ≠ some .suspended

theorem IsSilent.of_target (h : s.IsSilent) (ht : s'.target = s.target) : s'.IsSilent :=
  ⟨ht ▸ h.state, ht ▸ h.threads⟩

theorem IsSilent.take (h : s.IsSilent) (hs : s.take? = some s') : s'.IsSilent := by
  obtain ⟨-, ⟨e, rest, -, rfl⟩ | ⟨-, rfl⟩⟩ := take?_cases hs
  · refine h.of_target ?_
    rw [target_handle, targetAfter_withEvents, targetAfter_of_terminated h.state]
  · exact h.of_target rfl

theorem IsSilent.perform (h : s.IsSilent) {task : Task} (hs : s.perform? = some (task, s')) :
    s'.IsSilent := by
  obtain ⟨rest, -, rfl⟩ := perform?_cases hs
  exact h.of_target (target_effect _ task)

theorem IsSilent.notify (h : s.IsSilent) (n : Notification) : (s.notify n).2.IsSilent :=
  h.of_target (s.notify_frame n).1

/-! ### Standing -/

/-- A request to end is handed on, unless the session is over. -/
theorem tasksAfter_terminate (s : Session) : s.tasksAfter (.command .terminate) =
    if s.target.isTerminated then [] else [.releaseAll, .command .terminate, .forward .terminate] := by
  simp only [tasksAfter, Target.handleCommand]
  split <;> rfl

/-- Events that are not the end leave nothing that parts. -/
theorem not_parts_tasksAfter (h : s.Stands) {e : Event} (hn : e ≠ .notification .engineTerminated)
    (hc : e ≠ .command .disconnect) : ∀ task ∈ s.tasksAfter e, ¬ task.Parts := by
  have hlive : (s.targetAfter e).state ≠ .terminated := by
    cases e with
    | notification n => exact Target.state_handleNotification h.live.target _ fun he => hn (he ▸ rfl)
    | command c => exact Target.state_handleCommand h.live.target fun he => hc (he ▸ rfl)
  have hfarewells := (farewells_tasksAfter h.fault e).2
  rw [if_neg fun hover => hlive hover.1] at hfarewells
  intro task htask hparts
  have hnone {fault : Option Fault} (hleave : task = .callback (.sessionTerminated fault)) : False := by
    subst hleave
    have htold := List.mem_filterMap.mpr ⟨_, htask, show Task.told? _ = some _ from rfl⟩
    have hfarewell := List.filterMap_eq_nil_iff.mp hfarewells _ htold
    cases hfarewell
  by_cases hmild : e.IsMild
  · have htaskMild := s.mild_tasksAfter hmild task htask
    cases task with
    | callback c =>
        cases c with
        | sessionTerminated => exact hnone rfl
        | sessionCreated | threadCreated | threadStateChanged | stackFramesChanged => exact hparts
    | closeQueue | closeGate | finish | lastCallback => exact htaskMild
    | release | releaseAll | followUp | command | forward | forwardClosed | announceClosed => exact hparts
  · -- What is left is a request to end.
    cases e with
    | notification n => exact hmild fun he => hn (he ▸ rfl)
    | command c =>
        cases c with
        | resume | setBreakpoint => exact hmild trivial
        | disconnect => exact hc rfl
        | terminate =>
            rw [tasksAfter_terminate, if_neg (by simp [isTerminated_eq_false h.live])] at htask
            simp only [List.mem_cons, List.not_mem_nil, or_false] at htask
            rcases htask with rfl | rfl | rfl <;> exact hparts

/-- **The next event**: the session goes on, unless it is one of the two that end it. -/
theorem Stands.take (h : s.Stands) (hs : s.take? = some s') :
    ∃ e rest, s.queue.events = e :: rest ∧ s'.queue.events = rest ∧
      (s'.IsSilent ∨ s'.Stands ∧ e ≠ .notification .engineTerminated) := by
  obtain ⟨-, e, rest, hevents, rfl⟩ := take?_open h.queue_open h.live.queue hs
  refine ⟨e, rest, hevents, by rw [queue_handle]; rfl, ?_⟩
  have hsilent (htarget : s.targetAfter e = (s.target.terminate none).2) :
      ((s.withEvents rest).handle e).IsSilent := by
    rw [← targetAfter_withEvents s rest, ← target_handle] at htarget
    refine ⟨?_, fun id => ?_⟩
    · rw [htarget]
      exact Target.state_terminate _ _
    · rw [htarget]
      exact Target.not_suspended_terminate h.live.target none id
  by_cases hn : e = .notification .engineTerminated
  · subst hn
    exact .inl (hsilent (congrArg Prod.snd (Target.handleNotification_engineTerminated _ _)))
  · by_cases hc : e = .command .disconnect
    · subst hc
      refine .inl (hsilent ?_)
      show (s.target.handleCommand .disconnect).2 = _
      rw [Target.handleCommand, if_neg (by simp [isTerminated_eq_false h.live])]
    · have hagenda := not_parts_tasksAfter h hn hc
      have hfault := (farewells_tasksAfter h.fault e).1
      refine .inr ⟨?_, hn⟩
      rw [handle_eq, targetAfter_withEvents, tasksAfter_withEvents]
      refine ⟨⟨?_, h.live.queue⟩, hfault, h.queue_open, h.gate_open, h.awake, hagenda⟩
      cases e with
      | notification n => exact Target.state_handleNotification h.live.target _ fun he => hn (he ▸ rfl)
      | command c => exact Target.state_handleCommand h.live.target fun he => hc (he ▸ rfl)

/-- **The next task** closes nothing, and takes nothing from the queue. -/
theorem Stands.perform (h : s.Stands) {task : Task} (hs : s.perform? = some (task, s')) :
    ¬ task.Parts ∧ s'.Stands ∧ s.queue.events ⊆ s'.queue.events := by
  obtain ⟨rest, hagenda, rfl⟩ := perform?_cases hs
  have hall := h.agenda
  rw [hagenda, List.forall_mem_cons] at hall
  have hrest : (s.withAgenda rest).Stands :=
    ⟨⟨h.live.target, h.live.queue⟩, h.fault, h.queue_open, h.gate_open, h.awake, hall.2⟩
  refine ⟨hall.1, ?_⟩
  cases task with
  | closeQueue | closeGate | finish | lastCallback => exact absurd trivial hall.1
  | followUp c =>
      obtain ⟨cs, -, hcs, -⟩ := (s.withAgenda rest).commanded_submit c
      refine ⟨⟨hcs.isLive.mpr hrest.live, ?_, ?_, ?_, ?_, ?_⟩, ?_⟩
      · exact (congrArg Target.fault (target_effect _ (.followUp c))).trans hrest.fault
      · exact (congrArg EventQueue.closed hcs.queue).trans hrest.queue_open
      · exact (congrArg Gate.closed hcs.gate).trans hrest.gate_open
      · exact (congrArg Worker.exit hcs.worker).trans hrest.awake
      · rw [agenda_effect]
        exact hrest.agenda
      · show _ ⊆ ((s.withAgenda rest).submit (.command c)).2.queue.events
        rw [hcs.events]
        exact List.subset_append_left _ _
  | callback | release | releaseAll | command | forward | forwardClosed | announceClosed =>
      exact ⟨⟨isLive_effect.mpr hrest.live, hrest.fault, hrest.queue_open, hrest.gate_open, hrest.awake,
        hrest.agenda⟩, List.Subset.refl _⟩

/-- Whatever is reported, the session goes on. -/
theorem Stands.notify (h : s.Stands) (n : Notification) : (s.notify n).2.Stands := by
  obtain ⟨htarget, hworker, -, hqueue⟩ := s.notify_frame n
  have hgate : (s.notify n).2.gate.closed = false := by
    obtain ⟨cause, -, hn⟩ | ⟨gate, hgate, hn | ⟨-, hn⟩⟩ := notify_cases h.queue_open n <;> rw [hn]
    · exact h.gate_open
    · exact (Gate.closed_of_accept hgate).2
    · exact (Gate.closed_of_accept hgate).2
  refine ⟨isLive_notify.mpr h.live, htarget ▸ h.fault, ?_, hgate, hworker ▸ h.awake, hworker ▸ h.agenda⟩
  rcases hqueue with hqueue | hqueue <;> rw [hqueue] <;> exact h.queue_open

/-- So it does whatever is commanded. -/
theorem Stands.commanded (h : s.Stands) {cs : List Command} (hcs : s.Commanded s' cs)
    (hfault : s'.target.fault = s.target.fault) : s'.Stands where
  live := hcs.isLive.mpr h.live
  fault := hfault.trans h.fault
  queue_open := (congrArg EventQueue.closed hcs.queue).trans h.queue_open
  gate_open := (congrArg Gate.closed hcs.gate).trans h.gate_open
  awake := (congrArg Worker.exit hcs.worker).trans h.awake
  agenda := hcs.worker ▸ h.agenda

/-! ### Going on, or over -/

/-- A session that goes on, or is over. -/
def Unbroken (s : Session) : Prop :=
  s.IsSilent ∨ s.Stands

theorem Unbroken.take (h : s.Unbroken) (hs : s.take? = some s') : s'.Unbroken := by
  rcases h with hsilent | hstands
  · exact .inl (hsilent.take hs)
  · obtain ⟨-, -, -, -, hsilent | ⟨hstands', -⟩⟩ := hstands.take hs
    · exact .inl hsilent
    · exact .inr hstands'

theorem Unbroken.perform (h : s.Unbroken) {task : Task} (hs : s.perform? = some (task, s')) : s'.Unbroken :=
  h.imp (fun hsilent => hsilent.perform hs) fun hstands => (hstands.perform hs).2.1

/-! ### On the way to the end -/

/-- **The session comes to its end**, or has. -/
def Parting (s : Session) : Prop :=
  s.IsSilent ∨ s.Stands ∧ .notification .engineTerminated ∈ s.queue.events

/-- **The engine reports its end**, which the gate always admits. -/
theorem Unbroken.reportEnd (h : s.Unbroken) : (s.notify .engineTerminated).2.Parting := by
  rcases h with hsilent | hstands
  · exact .inl (hsilent.notify .engineTerminated)
  · refine .inr ⟨hstands.notify .engineTerminated, ?_⟩
    obtain ⟨cause, hrefused, -⟩ | ⟨gate, -, hn | ⟨hmem, hn⟩⟩ :=
      notify_cases hstands.queue_open .engineTerminated
    · rw [Gate.accept, if_neg (by simp [hstands.gate_open])] at hrefused
      cases hrefused
    · rw [hn]
      exact List.mem_append_right _ List.mem_cons_self
    · rw [hn]
      exact hmem

theorem Parting.take (h : s.Parting) (hs : s.take? = some s') : s'.Parting := by
  rcases h with hsilent | ⟨hstands, hreport⟩
  · exact .inl (hsilent.take hs)
  · obtain ⟨e, rest, hevents, hrest, hsilent | ⟨hstands', hne⟩⟩ := hstands.take hs
    · exact .inl hsilent
    · refine .inr ⟨hstands', ?_⟩
      rw [hevents] at hreport
      rw [hrest]
      exact (List.mem_cons.mp hreport).resolve_left fun hsame => hne hsame.symm

theorem Parting.perform (h : s.Parting) {task : Task} (hs : s.perform? = some (task, s')) : s'.Parting := by
  rcases h with hsilent | ⟨hstands, hreport⟩
  · exact .inl (hsilent.perform hs)
  · obtain ⟨-, hstands', hevents⟩ := hstands.perform hs
    exact .inr ⟨hstands', hevents hreport⟩

/-- **A dispatcher that rests has come to the end.** -/
theorem Parting.silent (h : s.Parting) (hperform : s.perform? = none) (htake : s.take? = none) :
    s.IsSilent := by
  rcases h with hsilent | ⟨hstands, hreport⟩
  · exact hsilent
  · obtain ⟨e, rest, hevents⟩ := List.exists_cons_of_ne_nil (List.ne_nil_of_mem hreport)
    have hagenda : s.worker.agenda = [] := by
      unfold perform? at hperform
      split at hperform
      · next hnil => exact hnil
      · cases hperform
    have htakes := take?_eq_some.mpr
      ⟨hagenda, hstands.awake, .inl ⟨e, rest, hstands.live.queue, hevents, rfl⟩⟩
    cases htake.symm.trans htakes

end Session

end Pausepoint
