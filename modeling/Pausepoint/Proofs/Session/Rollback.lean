import Pausepoint.Proofs.Session.Refusals

/-!
# Pausepoint.Proofs.Session.Rollback

What is left of a report that was refused.

A report is refused by the gate, which then remembers nothing of it, or by a queue that is closed, after the
gate has admitted it. In the second case the gate forgets the pause that came with the report, and nothing
else: that the engine has started or ended, and that a thread has announced itself, is remembered of reports
that nobody will ever take. This can be seen by the causes for which later reports are refused; whether they
are refused does not depend on it.

* `Gate.residue` — what is left at the gate, report by report (`Gate.revoke_of_accept`), and `Gate.Knows`,
  when that is nothing;
* `Session.notify_of_refused` — both ways to be refused;
* `Session.refused_report_is_undone` — what is as before;
* `Session.refused_announcement_is_remembered` — what is not.
-/

namespace Pausepoint

/-! ### The gate -/

namespace Gate

variable {g g' : Gate} {n : Notification} {thread : ThreadId}

/-- What is left of a report at a gate that admitted it, once its pause is taken back. -/
def residue (g : Gate) : Notification → Gate
  | .engineStarted => { g with phase := .started }
  | .engineTerminated => { g with phase := .ended, paused := [] }
  | .scriptReady thread .. => { g with known := withThread thread g.known }
  | .stackFrames .. | .suspended .. | .resumed .. => g

/-- A report tells the gate nothing that it would remember, but for a pause. -/
def Knows (g : Gate) : Notification → Prop
  | .engineStarted => g.phase = .started
  | .engineTerminated => g.phase = .ended ∧ g.paused = []
  | .scriptReady thread .. => thread ∈ g.known
  | .stackFrames .. | .suspended .. | .resumed .. => True

/-- **Nothing is left** of what the gate knows anyway. -/
theorem residue_of_knows (h : g.Knows n) : g.residue n = g := by
  cases n with
  | engineStarted =>
      have hphase : g.phase = .started := h
      rw [residue, ← hphase]
  | engineTerminated =>
      obtain ⟨hphase, hpaused⟩ : g.phase = .ended ∧ g.paused = [] := h
      rw [residue, ← hphase, ← hpaused]
  | scriptReady thread =>
      have hknown : thread ∈ g.known := h
      rw [residue, withThread, if_pos hknown]
  | stackFrames | suspended | resumed => rfl

/-- A thread that was not there can be taken away again. -/
theorem filter_withThread {set : List ThreadId} (h : thread ∉ set) :
    (withThread thread set).filter (· ≠ thread) = set := by
  have hothers : ∀ other ∈ set, other ≠ thread := fun other hother hsame => h (hsame ▸ hother)
  rw [withThread, if_neg h]
  simpa using hothers

/-- A pause that is taken back was never there, but an announcement was. -/
theorem release_admitted (hpause : n.isPause = true) (h : thread ∉ g.paused) :
    (g.admitted n thread).release thread =
      { g with known := if announces n then withThread thread g.known else g.known } := by
  unfold admitted release
  dsimp only
  rw [if_pos hpause, filter_withThread h]

/-- **What is left of a report** that was admitted, once its pause is taken back. -/
theorem revoke_of_accept (h : g.accept n = .ok g') : g'.revoke n = g.residue n := by
  cases hid : n.thread? with
  | none =>
      obtain ⟨rfl, -, rfl⟩ | ⟨rfl, rfl⟩ := accept_engine hid h
      · rfl
      · rfl
  | some thread =>
      obtain ⟨-, hpaused, -, rfl⟩ := accept_thread hid h
      cases n with
      | engineStarted | engineTerminated => cases hid
      | scriptReady | suspended =>
          obtain rfl := Option.some.inj hid
          exact release_admitted rfl hpaused
      | stackFrames | resumed => rfl

/-- What is left of a report does not keep the gate from admitting it again. -/
theorem exists_accept_residue (h : g.accept n = .ok g') : ∃ again, (g.residue n).accept n = .ok again := by
  have hopen : g.closed = false := (closed_of_accept h).1
  cases n with
  | engineStarted => exact ⟨_, accept_engineStarted hopen (by simp [residue])⟩
  | engineTerminated => exact ⟨g.residue .engineTerminated, by simp [accept, residue, hopen]⟩
  | scriptReady =>
      obtain ⟨hphase, hpaused, -, -⟩ := accept_thread rfl h
      exact ⟨_, accept_of_ready rfl hopen hphase (.inl rfl) hpaused⟩
  | stackFrames | suspended | resumed => exact ⟨g', h⟩

end Gate

/-! ### The session -/

namespace Session

variable {s : Session} {n : Notification} {cause : Refusal}

/-- An admitted report is refused by a closed queue only. -/
theorem reply_of_accept {gate : Gate} (h : s.gate.accept n = .ok gate) :
    (s.notify n).1 = if s.queue.closed = true then .error .closed else .ok () := by
  cases hclosed : s.queue.closed with
  | true => simp [notify, h, EventQueue.submit, hclosed]
  | false =>
      obtain ⟨cause, hrefused, -⟩ | ⟨gate, -, htaken | ⟨-, htaken⟩⟩ := notify_cases hclosed n
      · rw [h] at hrefused
        cases hrefused
      · rw [htaken]
        rfl
      · rw [htaken]
        rfl

/-- **Why a report is refused**, and what is left of it: it is refused by the gate, which remembers nothing,
or by a closed queue after the gate has admitted it. -/
theorem notify_of_refused (h : (s.notify n).1 = .error cause) :
    s.gate.accept n = .error cause ∧ (s.notify n).2 = s ∨
      cause = .closed ∧ s.queue.closed = true ∧ (∃ gate, s.gate.accept n = .ok gate) ∧
        (s.notify n).2 = { s with gate := s.gate.residue n } := by
  cases haccept : s.gate.accept n with
  | error refusal =>
      rw [notify, haccept] at h
      cases h
      exact .inl ⟨rfl, notify_of_error haccept⟩
  | ok gate =>
      rw [reply_of_accept haccept] at h
      split at h
      · next hclosed =>
          cases h
          refine .inr ⟨rfl, hclosed, ⟨gate, rfl⟩, ?_⟩
          rw [notify_of_ok haccept, if_pos hclosed, EventQueue.offer_of_closed hclosed,
            Gate.revoke_of_accept haccept]
      · cases h

/-- **A refused report is undone**, up to what the gate remembers of starts, ends and announcements. All but
the gate is as before, and so is whether the gate is closed. A report about a thread leaves the phase and all
pauses as before. A report leaves nothing at all if the gate refused it, or if it tells the gate nothing new.
In any case the same report is refused again for the same cause, and every other report is refused exactly if
it had been refused anyway. -/
theorem refused_report_is_undone (h : (s.notify n).1 = .error cause) :
    (s.notify n).2 = { s with gate := (s.notify n).2.gate } ∧
      (s.notify n).2.gate.closed = s.gate.closed ∧
      (∀ thread, n.thread? = some thread →
        (s.notify n).2.gate.phase = s.gate.phase ∧ (s.notify n).2.gate.paused = s.gate.paused) ∧
      (s.gate.accept n = .error cause ∨ s.gate.Knows n → (s.notify n).2 = s) ∧
      ((s.notify n).2.notify n).1 = .error cause ∧
      ∀ m, ((s.notify n).2.notify m).1 = .ok () ↔ (s.notify m).1 = .ok () := by
  -- The gate refused it, or admitted it before the queue did not take it.
  rcases notify_of_refused h with ⟨-, hsame⟩ | ⟨rfl, hclosed, ⟨gate, haccept⟩, hleft⟩
  · rw [hsame]
    exact ⟨rfl, rfl, fun _ _ => ⟨rfl, rfl⟩, fun _ => rfl, h, fun _ => Iff.rfl⟩
  · rw [hleft]
    refine ⟨rfl, ?_, fun thread hthread => ?_, ?_, ?_, fun m => ?_⟩
    · cases n <;> rfl
    · cases n with
      | engineStarted | engineTerminated => cases hthread
      | scriptReady | stackFrames | suspended | resumed => exact ⟨rfl, rfl⟩
    · rintro (hrefused | hknows)
      · rw [haccept] at hrefused
        cases hrefused
      · rw [Gate.residue_of_knows hknows]
    · obtain ⟨again, hagain⟩ := Gate.exists_accept_residue haccept
      have hreply := reply_of_accept (s := { s with gate := s.gate.residue n }) hagain
      rwa [if_pos hclosed] at hreply
    · -- A closed queue takes no report, whatever the gate says.
      obtain ⟨⟨refusal, hrefusal⟩, -⟩ := notify_of_closed hclosed m
      obtain ⟨⟨later, hlater⟩, -⟩ :=
        notify_of_closed (s := { s with gate := s.gate.residue n }) hclosed m
      rw [hrefusal, hlater]
      simp

/-- A pause that was admitted and then refused is taken back. -/
theorem refused_report_is_undone_suspended :
    let report : Notification := .suspended ⟨1⟩ [] .breakpoint
    (ControlCall.deserted.notify report).1 = .error .closed ∧ ControlCall.deserted.gate.Knows report ∧
      (∃ gate, ControlCall.deserted.gate.accept report = .ok gate ∧ gate ≠ ControlCall.deserted.gate) ∧
      (ControlCall.deserted.notify report).2 = ControlCall.deserted := by
  intro report
  have hrefused : (ControlCall.deserted.notify report).1 = .error .closed := rfl
  obtain ⟨-, -, -, hsame, -⟩ := refused_report_is_undone hrefused
  exact ⟨hrefused, trivial, ⟨_, rfl, by decide +kernel⟩, hsame (.inr trivial)⟩

/-- **A refused announcement is remembered.** A thread announces itself to a session that was cancelled, and
is refused. Before that its reports are refused because it is unknown, and afterwards because the queue is
closed. -/
theorem refused_announcement_is_remembered :
    let script : Snapshot := { id := ⟨2⟩, title := "main", source := "", resource := some "main" }
    let announced := (ControlCall.deserted.notify (.scriptReady ⟨2⟩ script true)).2
    (∃ trace, Execution Session.Proceeds (.create {}) trace ControlCall.deserted) ∧
      (ControlCall.deserted.notify (.scriptReady ⟨2⟩ script true)).1 = .error .closed ∧
      ControlCall.deserted.gate.known = [⟨1⟩] ∧ announced.gate.known = [⟨2⟩, ⟨1⟩] ∧
      (ControlCall.deserted.notify (.stackFrames ⟨2⟩ [])).1 = .error (.unknownThread ⟨2⟩) ∧
      (announced.notify (.stackFrames ⟨2⟩ [])).1 = .error .closed := by
  obtain ⟨trace, hgreeted, -⟩ := Session.execution_greeted
  exact ⟨⟨_, hgreeted.next (.call _ .cancel)⟩, rfl, rfl, rfl, rfl, rfl⟩

end Session

end Pausepoint
