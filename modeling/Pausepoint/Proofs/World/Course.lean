import Pausepoint.Proofs.Language.Steady
import Pausepoint.Proofs.Language.Trail
import Pausepoint.Proofs.Session.EndsNothing
import Pausepoint.Proofs.World.Wakeful

/-!
# Pausepoint.Proofs.World.Course

Where the run of a script is, as long as nobody ends its session.

`OnCourse` is the invariant of the only job of a world until its run comes to its end: nothing ends the
session (`Session.Peaceful`), the engine is open, and the run is where its checkpoints say (`Course`); the
gate knows the thread as soon as a script that is looked at was announced.

It is kept by whatever the others do. Only one step of the job may leave it: the gate still has a pause of
the thread when the next one is reported, which is then refused (`OnCourse.job`).
-/

namespace Pausepoint

open Pausepoint.Language

/-! ### Where a run is -/

def Language.Checkpoint.request? : Checkpoint → Option Request
  | .load script depth => some (.load script depth)
  | .line script number depth frames => some (.line script number depth frames)
  | .started | .ended => none

/-- Where the call at a checkpoint may be, given what the gate knows. -/
def Underway (g : Gate) (tracked : Snapshot → Bool) (thread : ThreadId) (point : Checkpoint) :
    Phase → Prop
  | .entering r => point.request? = some r
  | .opening p | .reporting p =>
      p.ShapedFor thread ∧ (Gate.announces p.report = true ∨ thread ∈ g.known)
  | .waiting _ | .confirming _ | .abandoning _ | .excusing _ => thread ∈ g.known
  | .returned reply =>
      point.Harmless reply ∧
        ∀ script depth, point = .load script depth → tracked script = true → thread ∈ g.known

/-- Where a run is, by the checkpoints to come, before it reports the end of the engine. -/
inductive Course (g : Gate) (tracked : Snapshot → Bool) (thread : ThreadId) :
    List Checkpoint → Option Phase → Prop
  /-- The engine has not started. -/
  | unstarted {points : List Checkpoint} (hphase : g.phase = .idle) (ha : Announced [] points) :
      Course g tracked thread (.started :: (points ++ [.ended])) none
  /-- The engine has started, and nothing else has happened. -/
  | started {points : List Checkpoint} (hphase : g.phase = .started) (ha : Announced [] points) :
      Course g tracked thread (.started :: (points ++ [.ended])) (some (.returned (.ok ())))
  /-- The next call is to come. -/
  | between {seen : List Snapshot} {points : List Checkpoint} (hphase : g.phase = .started)
      (ha : Announced seen points)
      (hknown : ∀ script ∈ seen, tracked script = true → thread ∈ g.known) :
      Course g tracked thread (points ++ [.ended]) none
  /-- A call is under way. -/
  | within {seen : List Snapshot} {point : Checkpoint} {points : List Checkpoint} {phase : Phase}
      (hphase : g.phase = .started) (ha : Announced seen (point :: points))
      (hknown : ∀ script ∈ seen, tracked script = true → thread ∈ g.known)
      (hcall : Underway g tracked thread point phase) :
      Course g tracked thread (point :: (points ++ [.ended])) (some phase)

section

variable {g g' : Gate} {tracked : Snapshot → Bool} {thread : ThreadId}

/-- A gate that knows more threads. -/
theorem Underway.mono {point : Checkpoint} {phase : Phase} (h : Underway g tracked thread point phase)
    (hknown : thread ∈ g.known → thread ∈ g'.known) : Underway g' tracked thread point phase := by
  cases phase with
  | entering r => exact h
  | opening p => exact ⟨h.1, h.2.imp_right hknown⟩
  | reporting p => exact ⟨h.1, h.2.imp_right hknown⟩
  | waiting | confirming | abandoning | excusing => exact hknown h
  | returned reply => exact ⟨h.1, fun script depth hp ht => hknown (h.2 script depth hp ht)⟩

theorem Course.mono {points : List Checkpoint} {phase : Option Phase}
    (h : Course g tracked thread points phase) (hphase : g'.phase = g.phase)
    (hknown : thread ∈ g.known → thread ∈ g'.known) : Course g' tracked thread points phase := by
  cases h with
  | unstarted hp ha => exact .unstarted (hphase.trans hp) ha
  | started hp ha => exact .started (hphase.trans hp) ha
  | between hp ha hk => exact .between (hphase.trans hp) ha fun s hs ht => hknown (hk s hs ht)
  | within hp ha hk hc =>
      exact .within (hphase.trans hp) ha (fun s hs ht => hknown (hk s hs ht)) (hc.mono hknown)

end

/-! ### The invariant -/

/-- **On course**: the run of a thread is where its checkpoints to come say, and nothing ends the session. -/
structure OnCourse (thread : ThreadId) (b : Bridge) (points : List Checkpoint) (phase : Option Phase) :
    Prop where
  peaceful : b.session.Peaceful
  /-- The engine is part of the session. -/
  isOpen : b.engine.closed = none
  course : Course b.session.gate b.engine.isTracked thread points phase

/-- What an open engine decides: to pause, where a script is looked at and there is a reason. -/
theorem Engine.decide_of_open {e : Engine} (h : e.closed = none) (thread : ThreadId) (r : Request) :
    (∃ p, e.decide thread r = .pause p ∧ e.pause? thread r = some p ∧ e.isTracked r.script = true) ∨
      e.decide thread r = .pass ∧ (e.isTracked r.script = true → e.pause? thread r = none) := by
  unfold decide
  rw [h]
  dsimp only
  split
  · next ht =>
      split
      · next p hp => exact .inl ⟨p, rfl, hp, ht⟩
      · next hp => exact .inr ⟨rfl, fun _ => hp⟩
  · next ht => exact .inr ⟨rfl, fun h => absurd h ht⟩

/-- A decision that is taken up does not change what is looked at. -/
theorem Engine.isTracked_takeUp (e : Engine) (thread : ThreadId) (p : Pause) (mode : Mode) :
    (e.takeUp thread p mode).isTracked = e.isTracked := by
  unfold takeUp
  dsimp only
  split
  · rfl
  · split <;> rfl

namespace Session

/-- The reports of a thread that it goes on are no matter of the gate. -/
theorem gate_notify_resumed (s : Session) (thread : ThreadId) (mode : Mode) :
    (s.notify (.resumed thread mode)).2.gate = s.gate := by
  unfold notify
  split
  · rfl
  · next gate hgate =>
      obtain ⟨-, -, -, rfl⟩ := Gate.accept_thread rfl hgate
      split <;> rfl

end Session

/-- A command that ends nothing does not change what is looked at. -/
theorem World.isTracked_forward (e : Engine) {c : Command} (hc : c ≠ .terminate ∧ c ≠ .disconnect) :
    (effectOnEngine e (.forward c)).isTracked = e.isTracked := by
  unfold effectOnEngine
  dsimp only
  split
  · rfl
  · cases c with
    | terminate => exact absurd rfl hc.1
    | disconnect => exact absurd rfl hc.2
    | setBreakpoint => rfl
    | resume id mode =>
        unfold Engine.apply
        dsimp only
        split <;> rfl

namespace OnCourse

variable {thread : ThreadId} {b b' : Bridge} {point : Checkpoint} {points : List Checkpoint}
  {phase phase' : Phase}

/-- A call that has not returned is one at the first of the checkpoints. -/
theorem underway (h : OnCourse thread b (point :: points) (some phase))
    (hne : ∀ reply, phase ≠ .returned reply) :
    b.session.gate.phase = .started ∧ point.request?.isSome = true ∧
      Underway b.session.gate b.engine.isTracked thread point phase := by
  have hcourse := h.course
  generalize hall : point :: points = all at hcourse
  cases hcourse with
  | started => exact absurd rfl (hne _)
  | within hphase ha hknown hunder =>
      cases hall
      refine ⟨hphase, ?_, hunder⟩
      cases point with
      | load | line => rfl
      | started | ended => exact ha.elim

/-- **What a report meets**: it is accepted, and leaves its thread known and paused, or the gate still has
a pause of the thread. -/
theorem notify_report {p : Pause} (h : OnCourse thread b (point :: points) (some (.reporting p))) :
    (thread ∉ b.session.gate.paused ∧ (b.session.notify p.report).1 = .ok () ∧
        (b.session.notify p.report).2.gate = b.session.gate.admitted p.report thread) ∨
      thread ∈ b.session.gate.paused ∧ (b.session.notify p.report).1 = .error (.pauseInFlight thread) := by
  obtain ⟨hphase, -, hshape, hknown⟩ := h.underway nofun
  by_cases hpaused : thread ∈ b.session.gate.paused
  · refine .inr ⟨hpaused, ?_⟩
    have hrefused := Gate.accept_of_paused hshape.thread? h.peaceful.gate_open hphase hknown hpaused
    unfold Session.notify
    rw [hrefused]
  · have haccepts := Gate.accept_of_ready hshape.thread? h.peaceful.gate_open hphase hknown hpaused
    exact .inl ⟨hpaused, h.peaceful.accepted haccepts⟩

/-- A thread reports that it goes on, which changes nothing here. -/
theorem resumed {all : List Checkpoint} {call next : Option Phase} (h : OnCourse thread b all call)
    (mode : Mode) (hcourse : Course b.session.gate b.engine.isTracked thread all next) :
    OnCourse thread (b.mention (.resumed thread mode)) all next := by
  refine ⟨h.peaceful.notify nofun, h.isOpen, ?_⟩
  rw [Bridge.session_mention, Session.gate_notify_resumed]
  exact hcourse

/-- **A step of a call.** The run stays on course, unless a report is refused. -/
theorem call (h : OnCourse thread b (point :: points) (some phase))
    (hcall : CallStep b thread (some phase) b' (some phase')) :
    OnCourse thread b' (point :: points) (some phase') ∨
      (∃ p, phase = .reporting p) ∧ thread ∈ b.session.gate.paused ∧
        phase' = .returned (.error (.pauseInFlight thread)) := by
  have hwhole := h
  have hcourse := h.course
  generalize hpoints : point :: points = all at hcourse
  cases hcourse with
  | started => cases hcall
  | @within seen _ points _ hphase ha hknown hunder =>
      cases hpoints
      have hconsent : point.Harmless (.ok ()) := by
        cases point with
        | load | line => exact .inl rfl
        | started | ended => exact ha.elim
      have hyield (milliseconds) : point.Harmless (.error (.resumeTimeout milliseconds)) := by
        cases point with
        | load | line => exact .inr ⟨milliseconds, rfl⟩
        | started | ended => exact ha.elim
      -- A step that leaves the gate and the scripts that are looked at alone.
      have hside {next : Phase}
          (hnext : Underway b.session.gate b.engine.isTracked thread point next) :
          OnCourse thread b (point :: (points ++ [.ended])) (some next) :=
        ⟨h.peaceful, h.isOpen, .within hphase ha hknown hnext⟩
      -- The engine is open, hence no call is refused or woken by the end; only a report may fail.
      cases hcall with
      | @refuse r cause hd =>
          rcases Engine.decide_of_open h.isOpen thread r with ⟨p, hp, -⟩ | ⟨hp, -⟩
          · cases hd.symm.trans hp
          · cases hd.symm.trans hp
      | @pass r hd =>
          refine .inl (hside ⟨hconsent, fun script depth hpoint ht => ?_⟩)
          rcases Engine.decide_of_open h.isOpen thread r with ⟨p, hp, -⟩ | ⟨-, hnone⟩
          · cases hd.symm.trans hp
          · rw [hpoint] at hunder
            cases hunder
            cases hnone ht
      | @pause r p hd =>
          refine .inl (hside ⟨Engine.shaped_of_decide hd, ?_⟩)
          rcases Engine.decide_of_open h.isOpen thread r with ⟨q, hq, hp, ht⟩ | ⟨hq, -⟩
          · cases hd.symm.trans hq
            cases point with
            | load script depth =>
                cases hunder
                cases hp
                exact .inl rfl
            | line script number depth frames =>
                cases hunder
                exact .inr (hknown script ha.1 ht)
            | started | ended => exact ha.elim
          · cases hd.symm.trans hq
      | openSlot p => exact .inl ⟨h.peaceful, h.isOpen, .within hphase ha hknown hunder⟩
      | @report p hn =>
          rcases hwhole.notify_report with ⟨-, -, hgate⟩ | ⟨-, herror⟩
          · have hn : p.report ≠ .engineTerminated := by
              intro he
              have hid := hunder.1.thread?
              rw [he] at hid
              cases hid
            have hthread : thread ∈ (b.session.notify p.report).2.gate.known := by
              rw [hgate, Gate.mem_known_admitted]
              exact hunder.2.symm.imp_right fun ha => ⟨ha, rfl⟩
            refine .inl ⟨h.peaceful.notify hn, h.isOpen, .within ?_ ha (fun _ _ _ => hthread) hthread⟩
            rw [Bridge.session_mention, hgate]
            exact hphase
          · cases hn.symm.trans herror
      | @unreported p cause hn =>
          -- The one refusal that is left is a pause that is still in flight.
          rcases hwhole.notify_report with ⟨-, hok, -⟩ | ⟨hpaused, herror⟩
          · cases hn.symm.trans hok
          · cases hn.symm.trans herror
            refine .inr ⟨⟨p, rfl⟩, hpaused, ?_⟩
            rw [if_neg (by rw [h.isOpen]; nofun)]
      | @takeUp p mode hwake =>
          refine .inl ⟨h.peaceful, ?_, ?_⟩
          · exact (World.takeUp_frame b.engine thread p mode).2.1.trans h.isOpen
          · rw [Engine.isTracked_takeUp]
            exact .within hphase ha hknown hunder
      | @closed p c hwake => cases h.isOpen.symm.trans (Engine.closed_of_wakening hwake)
      | confirm mode =>
          exact .inl (h.resumed mode (.within hphase ha hknown ⟨hconsent, fun _ _ _ _ => hunder⟩))
      | abandon milliseconds =>
          exact .inl ⟨h.peaceful.abandonPause thread, h.isOpen, .within hphase ha hknown hunder⟩
      | excuse milliseconds =>
          exact .inl (h.resumed .clientRequest
            (.within hphase ha hknown ⟨hyield milliseconds, fun _ _ _ _ => hunder⟩))

/-- A call gives up, which is a step of its own. -/
theorem giveUp {all : List Checkpoint} {p : Pause} (h : OnCourse thread b all (some (.waiting p)))
    (milliseconds : Nat) :
    OnCourse thread { b with engine := (b.engine.dropSlot thread).dropStep thread } all
      (some (.abandoning milliseconds)) := by
  have hcourse := h.course
  cases hcourse with
  | within hphase ha hknown hunder => exact ⟨h.peaceful, h.isOpen, .within hphase ha hknown hunder⟩

/-- The engine starts, as the first thing of all. -/
theorem start (h : OnCourse thread b (.started :: points) none) :
    b.engineStarted.1 = .ok () ∧ b.engineStarted.2.session.gate.paused = b.session.gate.paused ∧
      OnCourse thread b.engineStarted.2 (.started :: points) (some (.returned (.ok ()))) := by
  have hcourse := h.course
  generalize hall : Checkpoint.started :: points = all at hcourse
  cases hcourse with
  | @unstarted points hphase ha =>
      cases hall
      have hidle : b.session.gate.phase ≠ .ended := by
        rw [hphase]
        nofun
      obtain ⟨hok, hafter⟩ :=
        h.peaceful.accepted (Gate.accept_engineStarted h.peaceful.gate_open hidle)
      refine ⟨hok, ?_, h.peaceful.notify nofun, h.isOpen, ?_⟩
      · show (b.session.notify .engineStarted).2.gate.paused = _
        rw [hafter]
      · show Course (b.session.notify .engineStarted).2.gate _ _ _ _
        rw [hafter]
        exact .started rfl ha
  | @between seen points hphase ha hknown =>
      cases points with
      | nil => cases hall
      | cons point rest =>
          cases hall
          exact ha.elim

/-- A call begins. -/
theorem begin (h : OnCourse thread b (point :: points) none) :
    (Job.begin b point).1.session.gate.paused = b.session.gate.paused ∧
        OnCourse thread (Job.begin b point).1 (point :: points) (some (Job.begin b point).2) ∨
      point = .ended ∧ points = [] ∧ ∃ reply, (Job.begin b point).2 = .returned reply := by
  have hcourse := h.course
  generalize hall : point :: points = all at hcourse
  cases hcourse with
  | @unstarted points hphase ha =>
      cases hall
      obtain ⟨hok, hpaused, hstart⟩ := h.start
      rw [← hok] at hstart
      exact .inl ⟨hpaused, hstart⟩
  | @between seen points hphase ha hknown =>
      cases points with
      | nil =>
          cases hall
          exact .inr ⟨rfl, rfl, _, rfl⟩
      | cons next rest =>
          cases hall
          cases point with
          | load script depth =>
              exact .inl ⟨rfl, h.peaceful, h.isOpen, .within hphase ha hknown rfl⟩
          | line script number depth frames =>
              exact .inl ⟨rfl, h.peaceful, h.isOpen, .within hphase ha hknown rfl⟩
          | started | ended => exact ha.elim

/-- A call returned, and the run goes on as it does by consent. -/
theorem leave {reply : Reply} (h : OnCourse thread b (point :: points) (some (.returned reply))) :
    point.Harmless reply ∧ OnCourse thread b points none := by
  have hcourse := h.course
  generalize hall : point :: points = all at hcourse
  cases hcourse with
  | @started points hphase ha =>
      cases hall
      exact ⟨rfl, h.peaceful, h.isOpen, .between hphase ha nofun⟩
  | @within seen point points _ hphase ha hknown hunder =>
      cases hall
      refine ⟨hunder.1, h.peaceful, h.isOpen, ?_⟩
      cases point with
      | load script depth =>
          refine .between hphase ha fun s hs ht => ?_
          rcases List.mem_cons.mp hs with rfl | hs
          · exact hunder.2 s depth rfl ht
          · exact hknown s hs ht
      | line => exact .between hphase ha.2 hknown
      | started | ended => exact ha.elim

variable {all : List Checkpoint} {at? : Option Phase}

theorem points_ne_nil (h : OnCourse thread b all at?) : all ≠ [] := by
  have hcourse := h.course
  rintro rfl
  generalize hall : ([] : List Checkpoint) = all at hcourse
  cases hcourse with
  | unstarted | started | within => cases hall
  | @between seen points => simp at hall

/-- The end comes last. -/
theorem eq_nil_of_ended (h : OnCourse thread b (.ended :: points) none) : points = [] := by
  have hcourse := h.course
  generalize hall : Checkpoint.ended :: points = all at hcourse
  cases hcourse with
  | unstarted => cases hall
  | @between seen points hphase ha hknown =>
      cases points with
      | nil => exact (List.cons.inj hall).2
      | cons point rest =>
          obtain ⟨rfl, -⟩ := List.cons.inj hall
          exact ha.elim

/-- The control side makes a call that ends nothing. -/
theorem commanded (h : OnCourse thread b all at?) {session : Session} {cs : List Command}
    (hc : b.session.Commanded session cs) (hmild : ∀ c ∈ cs, c.IsMild) :
    OnCourse thread { b with session } all at? where
  peaceful := h.peaceful.commanded hc hmild
  isOpen := h.isOpen
  course := by
    show Course session.gate _ _ _ _
    rw [hc.gate]
    exact h.course

/-- The dispatcher takes an event. -/
theorem take (h : OnCourse thread b all at?) {session : Session} (hs : b.session.take? = some session) :
    OnCourse thread { b with session } all at? := by
  obtain ⟨-, e, rest, -, rfl⟩ := Session.take?_open h.peaceful.queue_open h.peaceful.uncancelled hs
  refine ⟨h.peaceful.take hs, h.isOpen, ?_⟩
  show Course ((b.session.withEvents rest).handle e).gate _ _ _ _
  rw [Session.handle_eq]
  exact h.course

/-- The next task ends nothing. -/
theorem mild_of_perform (h : OnCourse thread b all at?) {task : Task} {session : Session}
    (hs : b.session.perform? = some (task, session)) : task.IsMild := by
  obtain ⟨rest, hagenda, -⟩ := Session.perform?_cases hs
  exact h.peaceful.agenda task (by rw [hagenda]; exact List.mem_cons_self)

/-- The dispatcher does a task. -/
theorem perform (h : OnCourse thread b all at?) {task : Task} {session : Session}
    (hs : b.session.perform? = some (task, session)) :
    OnCourse thread { session, engine := World.effectOnEngine b.engine task } all at? := by
  have hmild := h.mild_of_perform hs
  have hpeaceful := h.peaceful.perform hs
  obtain ⟨rest, -, hsession⟩ := Session.perform?_cases hs
  -- Only a release touches the gate, and only a command that is handed over touches the engine.
  have hquiet (hgate : session.gate = b.session.gate)
      (hengine : World.effectOnEngine b.engine task = b.engine) :
      OnCourse thread { session, engine := World.effectOnEngine b.engine task } all at? := by
    rw [hengine]
    refine ⟨hpeaceful, h.isOpen, ?_⟩
    show Course session.gate _ _ _ _
    rw [hgate]
    exact h.course
  cases task with
  | callback | command => exact hquiet (by rw [hsession]; rfl) rfl
  | followUp c =>
      obtain ⟨cs, -, hc, -⟩ := (b.session.withAgenda rest).commanded_submit c
      exact hquiet (by rw [hsession]; exact hc.gate) rfl
  | release id =>
      refine ⟨hpeaceful, h.isOpen, ?_⟩
      show Course session.gate _ _ _ _
      rw [hsession]
      exact h.course.mono rfl fun hknown => hknown
  | forward c =>
      have hends := Command.IsMild.ends_nothing hmild
      refine ⟨hpeaceful, (World.apply_frame b.engine hends).1.trans h.isOpen, ?_⟩
      show Course session.gate _ _ _ _
      rw [hsession, World.isTracked_forward _ hends]
      exact h.course
  | releaseAll | lastCallback | closeQueue | closeGate | forwardClosed | announceClosed | finish =>
      exact hmild.elim

end OnCourse

/-! ### Steps of the job -/

namespace Job

/-- The run has come to its end: it has reported the end of the engine. -/
def Ending (j : Job) : Prop :=
  j.run.checkpoints = [.ended] ∧ ∃ reply, j.phase = some (.returned reply)

/-- A run with checkpoints to come is not over. -/
theorem result?_eq_none {j : Job} (h : j.run.checkpoints ≠ []) : j.result? = none := by
  unfold result?
  split
  · next result hdone =>
      rw [hdone] at h
      exact absurd rfl h
  · rfl

/-- A call at a load or at a line was refused, since the gate had a pause of the thread already. -/
def InFlight (j : Job) : Prop :=
  j.phase = some (.returned (.error (.pauseInFlight j.thread))) ∧
    ∃ point heap resume, j.run = .ask point heap resume ∧ point.request?.isSome = true

end Job

variable {b b' : Bridge} {j j' : Job}

/-- **A step of the job**: its run goes on as if it were alone, or its report is refused. -/
theorem OnCourse.job (hsteady : j.run.Steady) (h : OnCourse j.thread b j.run.checkpoints j.phase)
    (hstep : j.advance? b = some (b', j')) :
    (j'.run.Steady ∧ j'.run.undisturbed = j.run.undisturbed ∧
        (OnCourse j.thread b' j'.run.checkpoints j'.phase ∨ j'.Ending)) ∨
      j.thread ∈ b.session.gate.paused ∧ j'.run = j.run ∧ j'.InFlight := by
  obtain ⟨point, heap, resume, hrun, ⟨hphase, rfl, rfl⟩ | ⟨phase, phase', hphase, hadvance, rfl⟩ |
    ⟨reply, hphase, rfl, rfl⟩⟩ := Job.advance?_cases hstep
  · rw [hphase, hrun] at h
    refine .inl ⟨hsteady, rfl, ?_⟩
    show OnCourse _ _ j.run.checkpoints (some (Job.begin b point).2) ∨ _
    rw [hrun]
    refine h.begin.imp And.right ?_
    rintro ⟨rfl, hend, reply, hreply⟩
    refine ⟨?_, reply, congrArg some hreply⟩
    show j.run.checkpoints = _
    rw [hrun, Run.checkpoints, hend]
  · rw [hphase, hrun] at h
    rcases h.call (callStep_of_phase hadvance) with hnext | ⟨⟨p, rfl⟩, hpaused, rfl⟩
    · refine .inl ⟨hsteady, rfl, .inl ?_⟩
      show OnCourse _ _ j.run.checkpoints _
      rw [hrun]
      exact hnext
    · exact .inr ⟨hpaused, rfl, rfl, point, heap, resume, hrun, (h.underway nofun).2.1⟩
  · rw [hphase, hrun] at h
    obtain ⟨hreply, hleave⟩ := h.leave
    rw [hrun] at hsteady
    have hsame : resume reply = resume (.ok ()) := hsteady.1 reply hreply
    dsimp only
    rw [hsame, hrun]
    exact .inl ⟨hsteady.2, rfl, .inl hleave⟩

/-- The next step is not the last. -/
theorem OnCourse.result?_eq_none (hsteady : j.run.Steady)
    (h : OnCourse j.thread b j.run.checkpoints j.phase) (hstep : j.advance? b = some (b', j')) :
    j'.result? = none := by
  rcases h.job hsteady hstep with ⟨-, -, hnext | ⟨hpoints, -⟩⟩ | ⟨-, hrun, -⟩
  · exact Job.result?_eq_none hnext.points_ne_nil
  · exact Job.result?_eq_none (by rw [hpoints]; exact List.cons_ne_nil _ _)
  · exact Job.result?_eq_none (by rw [hrun]; exact h.points_ne_nil)

/-- Once the end of the engine is reported, the next step is the last. -/
theorem Job.Ending.step (h : j.Ending) (hsteady : j.run.Steady)
    (hstep : j.advance? b = some (b', j')) : j'.result? = some j.run.undisturbed := by
  obtain ⟨hpoints, reply, hphase⟩ := h
  obtain ⟨point, heap, resume, hrun, ⟨hnone, -, -⟩ | ⟨phase, phase', hsome, hadvance, -⟩ |
    ⟨reply', -, rfl, rfl⟩⟩ := Job.advance?_cases hstep
  · cases hphase.symm.trans hnone
  · cases hphase.symm.trans hsome
    cases hadvance
  · rw [hrun] at hpoints hsteady ⊢
    obtain ⟨rfl, hend⟩ := List.cons.inj hpoints
    have hsame : resume reply' = resume (.ok ()) := hsteady.1 reply' trivial
    have hdone : resume reply' = .done (resume (.ok ())).undisturbed := by
      rw [hsame]
      cases hdone : resume (.ok ()) with
      | done result => rfl
      | ask next heap resume' =>
          rw [hdone] at hend
          cases hend
    rw [Job.result?, hdone]
    rfl

end Pausepoint
