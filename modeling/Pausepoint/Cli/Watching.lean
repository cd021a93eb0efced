import Pausepoint.Cli.Controller
import Pausepoint.World.Settling

/-!
# Coming to an end under a controller

Everyone makes steps until nobody can, and there is no bound on their number: whoever moves when, every step
brings a watch closer to rest (`Watch.closer_of_step`), because

* a controller queues only so many commands: one for each stop below its limit, and one to end, which is asked
  for once;
* in between, the world comes to rest (`World.Closer`);
* at rest there are only so many signals, and the controller makes few steps for each of them.

`Watch.Closer` compares two watches by these, in this order.

* `Watch.run` — the schedule in which the controller takes its steps when everyone else rests.
-/

namespace Pausepoint

/-! ### Who asks for the end -/

namespace Session

theorem terminateRequested_submit (s : Session) (e : Event) :
    (s.submit e).2.terminateRequested = s.terminateRequested := by
  unfold submit
  split <;> rfl

/-- A command is queued, and nobody asks for the end by that; or it is refused. -/
theorem order_cases (s : Session) (c : Command) :
    (s.order c).2.terminateRequested = s.terminateRequested ∧
      ∀ cause, (s.order c).1 = .error cause → (s.order c).2 = s := by
  have hkept := s.terminateRequested_submit (.command c)
  unfold order
  unfold submit at hkept ⊢
  split
  · next hsubmit =>
      rw [hsubmit] at hkept
      exact ⟨hkept, nofun⟩
  · next hsubmit =>
      refine ⟨?_, fun _ _ => ?_⟩
      · rw [hsubmit] at hkept
        exact hkept
      · split at hsubmit <;> cases hsubmit
        rfl

theorem terminateRequested_notify (s : Session) (n : Notification) :
    (s.notify n).2.terminateRequested = s.terminateRequested := by
  unfold notify
  split
  · rfl
  · split <;> rfl

theorem terminateRequested_perform {s s' : Session} {task : Task} (h : s.perform? = some (task, s')) :
    s'.terminateRequested = s.terminateRequested := by
  unfold perform? at h
  split at h
  · cases h
  · cases h
    cases task with
    | followUp c => exact terminateRequested_submit _ _
    | callback | lastCallback | forward | release | releaseAll | command | closeQueue | closeGate
    | forwardClosed | announceClosed | finish => rfl

theorem terminateRequested_take {s s' : Session} (h : s.take? = some s') :
    s'.terminateRequested = s.terminateRequested := by
  unfold take? at h
  split at h
  · split at h
    · next e _ _ =>
        cases h
        cases e <;> rfl
    · cases h
      rfl
    · cases h
  · cases h

end Session

theorem Phase.terminateRequested_advance {b b' : Bridge} {thread : ThreadId} {phase phase' : Phase}
    (h : phase.advance? b thread = some (b', phase')) :
    b'.session.terminateRequested = b.session.terminateRequested := by
  cases phase with
  | entering r | waiting p =>
      unfold advance? at h
      dsimp only at h
      split at h <;> cases h <;> rfl
  | reporting p =>
      simp only [advance?, Bridge.notify] at h
      split at h
      all_goals
        next hn =>
          cases h
          have hb := congrArg (fun next : Reply × Bridge => next.2.session.terminateRequested) hn
          exact hb.symm.trans (b.session.terminateRequested_notify p.report)
  | confirming | excusing =>
      cases h
      exact b.session.terminateRequested_notify _
  | opening | abandoning =>
      cases h
      rfl
  | returned reply => cases h

theorem Job.terminateRequested_advance {b b' : Bridge} {j j' : Job} (h : j.advance? b = some (b', j')) :
    b'.session.terminateRequested = b.session.terminateRequested := by
  unfold advance? at h
  split at h
  · cases h
  · next point _ _ _ =>
      split at h
      · cases h
        cases point with
        | started => exact b.session.terminateRequested_notify _
        | ended =>
            show b.engineTerminated.2.session.terminateRequested = b.session.terminateRequested
            unfold Bridge.engineTerminated
            split
            · rfl
            · exact b.session.terminateRequested_notify _
        | load | line => rfl
      · cases h
        rfl
      · obtain ⟨⟨b₁, phase⟩, hadvance, hj⟩ := Option.map_eq_some_iff.mp h
        cases hj
        exact Phase.terminateRequested_advance hadvance

namespace World

/-- The dispatcher does not ask for the end. -/
theorem terminateRequested_dispatchStep? {w w' : World} {reports : List Report}
    (h : w.dispatchStep? = some (w', reports)) :
    w'.session.terminateRequested = w.session.terminateRequested := by
  unfold dispatchStep? at h
  split at h
  · cases h
  · split at h
    · next task session hperform =>
        cases h
        have hnoted (w : World) : (w.noteStop task).session = w.session := by
          unfold noteStop
          split <;> rfl
        have hinterrupted (w : World) :
            (w.interrupt task).session.terminateRequested = w.session.terminateRequested := by
          unfold interrupt
          split
          · rfl
          · dsimp only
            split
            · rfl
            · rfl
            · split <;> rfl
        rw [hinterrupted, hnoted]
        exact Session.terminateRequested_perform hperform
    · obtain ⟨session, htake, hw⟩ := Option.map_eq_some_iff.mp h
      cases hw
      exact Session.terminateRequested_take htake

/-- Nor does a job. -/
theorem terminateRequested_jobStep? {w w' : World} {reports : List Report}
    (h : w.jobStep? = some (w', reports)) :
    w'.session.terminateRequested = w.session.terminateRequested := by
  obtain ⟨⟨b, before, j', after⟩, hstep, hw⟩ := Option.map_eq_some_iff.mp h
  obtain ⟨-, j, -, -, hj⟩ := exists_job_of_stepJobs? hstep
  have hkept (j : Job) : (({ w with bridge := b } : World).keepScopes j).session = b.session := by
    unfold keepScopes
    split <;> rfl
  have hsession : w'.session = b.session := by
    dsimp only at hw
    split at hw <;> cases hw <;> exact hkept j'
  rw [hsession]
  exact Job.terminateRequested_advance hj

/-- Who reads a frame leaves everything to be done. -/
theorem remaining_showFrame (w : World) (h : Handle) : (w.showFrame h).2.remaining = w.remaining ∧
    (w.showFrame h).2.session.terminateRequested = w.session.terminateRequested := by
  have hread : (w.session.readVariables w.bindings h.thread h.slot).2.backlog = w.session.backlog ∧
      (w.session.readVariables w.bindings h.thread h.slot).2.terminateRequested =
        w.session.terminateRequested := by
    unfold Session.readVariables
    split <;> exact ⟨rfl, rfl⟩
  unfold showFrame
  split
  · exact ⟨rfl, rfl⟩
  · exact ⟨congrArg (fun backlog => (w.jobs.map Job.effort, passesLeft w.traps, backlog)) hread.1, hread.2⟩

end World

/-! ### Steps of the controller -/

/-- How far the controller is from its next signal. -/
def Attention.stepsLeft : Attention → Nat
  | .signalled _ => 7
  | .resumable _ => 6
  | .stopped _ => 5
  | .framed .. => 4
  | .reading .. => 3
  | .answering _ => 2
  | .sending _ => 1
  | .listening | .finished _ => 0

/-- How many frames it has still to read. -/
def Attention.framesLeft : Attention → Nat
  | .reading _ rest => rest.length
  | _ => 0

/-- How many commands are about to be queued, if an answer below the limit begins with one. -/
def Attention.commandsDue (below : Bool) : Attention → Nat
  | .answering _ => if below then 1 else 0
  | .sending _ => 1
  | _ => 0

theorem Attention.commandsDue_after (below : Bool) (reply : Reply) :
    (Attention.after reply).commandsDue below = 0 := by
  unfold after
  split <;> rfl

theorem Attention.stepsLeft_after (reply : Reply) : (Attention.after reply).stepsLeft = 0 := by
  unfold after
  split <;> rfl

namespace Watch

/-- How many commands may still be queued; one below the limit counts twice, until it is about to be queued. -/
def commandsLeft (k : Controller) (x : Watch) : Nat :=
  2 * (k.maxStops - x.handled) + (if x.world.session.terminateRequested then 0 else 1) +
    x.attention.commandsDue (x.handled < k.maxStops)

/-- What is still to do. -/
def remaining (k : Controller) (x : Watch) :=
  (x.commandsLeft k, x.world.remaining, x.pending.length, x.attention.stepsLeft, x.attention.framesLeft)

/-- One watch is closer to rest than another. -/
def Closer (k : Controller) (y x : Watch) : Prop :=
  Prod.Lex (· < ·) (Prod.Lex World.LessLeft (Prod.Lex (· < ·) (Prod.Lex (· < ·) (· < ·))))
    (y.remaining k) (x.remaining k)

theorem wellFounded_closer (k : Controller) : WellFounded (Closer k) := by
  have hnat : WellFounded fun m n : Nat => m < n := Nat.lt_wfRel.wf
  exact InvImage.wf (remaining k) (Prod.lex ⟨_, hnat⟩ (Prod.lex ⟨_, World.wellFounded_lessLeft⟩
    (Prod.lex ⟨_, hnat⟩ (Prod.lex ⟨_, hnat⟩ ⟨_, hnat⟩)))).wf

section

variable {k : Controller} {x y : Watch}

/-- Someone else makes a step, and asks for nothing. -/
theorem closer_of_advance {next : World × List Report} (hworld : World.Closer next.1 x.world)
    (hasked : next.1.session.terminateRequested = x.world.session.terminateRequested) :
    Closer k (x.advance next) x := by
  refine Prod.lex_def.mpr (.inr ⟨?_, Prod.lex_def.mpr (.inl hworld)⟩)
  show commandsLeft k (x.advance next) = commandsLeft k x
  unfold commandsLeft
  rw [show (x.advance next).world = next.1 from rfl, hasked]
  rfl

/-- The controller makes a step, of which the world has no more to do. -/
theorem closer_of_attention (hcommands : y.commandsLeft k ≤ x.commandsLeft k)
    (hworld : y.world.remaining = x.world.remaining)
    (hless : Prod.Lex (· < ·) (Prod.Lex (· < ·) (· < ·))
      (y.pending.length, y.attention.stepsLeft, y.attention.framesLeft)
      (x.pending.length, x.attention.stepsLeft, x.attention.framesLeft)) : Closer k y x := by
  refine Prod.lex_def.mpr ((Nat.lt_or_eq_of_le hcommands).imp id fun hsame => ⟨hsame, ?_⟩)
  exact Prod.lex_def.mpr (.inr ⟨hworld, hless⟩)

/-- It comes closer to its next signal. -/
theorem closer_of_goTo {attention : Attention} (hless : attention.stepsLeft < x.attention.stepsLeft)
    (hdue : attention.commandsDue (x.handled < k.maxStops) ≤ x.attention.commandsDue (x.handled < k.maxStops)) :
    Closer k (x.goTo attention) x :=
  closer_of_attention (Nat.add_le_add_left hdue _) rfl (Prod.lex_def.mpr (.inr ⟨rfl, Prod.lex_def.mpr (.inl hless)⟩))

/-- It comes closer, and was not about to answer. -/
theorem closer_of_look {before after : Attention} (hplace : x.attention = before)
    (hless : after.stepsLeft < before.stepsLeft)
    (hdue : after.commandsDue (x.handled < k.maxStops) = 0) : Closer k (x.goTo after) x :=
  closer_of_goTo (hplace ▸ hless) (hdue ▸ Nat.zero_le _)

/-- The frames of a thread are looked at. -/
theorem closer_of_inspect {thread : ThreadId} (hplace : x.attention = .stopped thread)
    (frames : List World.Handle) : Closer k (x.inspect thread frames) x := by
  have hnear : Attention.stepsLeft .listening < (Attention.stopped thread).stepsLeft := by
    show 0 < 5
    decide
  have hsteps : (Attention.framed thread frames).stepsLeft < x.attention.stepsLeft := by
    rw [hplace]
    show 4 < 5
    decide
  unfold inspect
  split
  · exact closer_of_look hplace hnear rfl
  · refine closer_of_attention ?_ rfl (Prod.lex_def.mpr (.inr ⟨rfl, Prod.lex_def.mpr (.inl hsteps)⟩))
    exact Nat.add_le_add_left (Nat.zero_le _) _

/-- An answer begins. -/
theorem closer_of_answer {thread : ThreadId} (hplace : x.attention = .answering thread) :
    Closer k (x.answer k thread) x := by
  have hsteps : x.attention.stepsLeft = 2 := congrArg Attention.stepsLeft hplace
  have hdue : x.attention.commandsDue (x.handled < k.maxStops) = if x.handled < k.maxStops then 1 else 0 := by
    rw [hplace]
    simp [Attention.commandsDue]
  unfold answer
  split
  · next hreached =>
      split
      · next session hask =>
          unfold Session.askEnd? at hask
          split at hask
          · cases hask
          · next hfirst =>
              cases hask
              -- The request was still to be made, and is now about to be queued.
              have hopen : x.world.session.terminateRequested = false := by
                simp only [Bool.or_eq_true, not_or, Bool.not_eq_true] at hfirst
                exact hfirst.2
              refine closer_of_attention ?_ rfl (Prod.lex_def.mpr (.inr ⟨rfl, Prod.lex_def.mpr (.inl ?_)⟩))
              · rw [commandsLeft, commandsLeft, hdue, hopen, if_neg (Nat.not_lt_of_le hreached)]
                exact Nat.le_refl _
              · rw [hsteps]
                exact Nat.one_lt_two
      · refine closer_of_goTo ?_ (Nat.zero_le _)
        rw [hsteps]
        exact Nat.two_pos
  · next hbelow =>
      split
      · refine closer_of_goTo ?_ ?_
        · rw [hsteps]
          exact Nat.one_lt_two
        · rw [hdue, if_pos (Nat.lt_of_not_le hbelow)]
          exact Nat.le_refl _
      · refine closer_of_goTo ?_ ?_
        · rw [Attention.stepsLeft_after, hsteps]
          exact Nat.two_pos
        · rw [Attention.commandsDue_after]
          exact Nat.zero_le _

/-- A command is queued, or refused. -/
theorem closer_of_send {c : Command} (hplace : x.attention = .sending c) :
    Closer k (x.calls (x.world.session.send c).2 (.after (x.world.session.send c).1)) x := by
  have hbefore : x.commandsLeft k = 2 * (k.maxStops - x.handled) +
      (if x.world.session.terminateRequested then 0 else 1) + 1 := by
    rw [commandsLeft, hplace]
    rfl
  have hafter (session : Session) (reply : Reply) : (x.calls session (.after reply)).commandsLeft k =
      2 * (k.maxStops - x.handled) + (if session.terminateRequested then 0 else 1) := by
    rw [commandsLeft, show (x.calls session (.after reply)).attention = .after reply from rfl,
      Attention.commandsDue_after]
    rfl
  obtain ⟨hok, hrefused⟩ := x.world.session.order_cases c
  unfold Session.send
  cases horder : x.world.session.order c with
  | mk reply session =>
      rw [horder] at hok hrefused
      cases reply with
      | ok =>
          refine Prod.lex_def.mpr (.inl ?_)
          show (x.calls session (.after (.ok ()))).commandsLeft k < x.commandsLeft k
          rw [hbefore, hafter, show session.terminateRequested = _ from hok]
          exact Nat.lt_succ_self _
      | error cause =>
          -- The request to end may be made again, but no command was queued.
          obtain rfl : session = x.world.session := hrefused cause rfl
          dsimp only
          refine closer_of_attention ?_ ?_ (Prod.lex_def.mpr (.inr ⟨rfl, Prod.lex_def.mpr (.inl ?_)⟩))
          · rw [hbefore, hafter]
            split <;> split <;> omega
          · show (x.world.withSession _).remaining = x.world.remaining
            split <;> rfl
          · show (Attention.after _).stepsLeft < _
            rw [Attention.stepsLeft_after, hplace]
            exact Nat.one_pos

/-- **A step of the controller.** -/
theorem closer_of_attend (h : x.attend? k = some y) : Closer k y x := by
  have hnearer {m n : Nat} (hless : m < n) {p : Nat} {a b : Nat} :
      Prod.Lex (· < ·) (Prod.Lex (· < ·) (· < ·)) (p, m, a) (p, n, b) :=
    Prod.lex_def.mpr (.inr ⟨rfl, Prod.lex_def.mpr (.inl hless)⟩)
  have hlook {before after : Attention} (hplace : x.attention = before)
      (hless : after.stepsLeft < before.stepsLeft) (hdue : ∀ below, after.commandsDue below = 0) :
      Closer k (x.goTo after) x := closer_of_look hplace hless (hdue _)
  unfold attend? at h
  split at h
  · next hplace =>
      -- A signal is taken.
      split at h
      · cases h
      all_goals
        next rest hpending =>
          cases h
          refine closer_of_attention (Nat.add_le_add_left (Nat.zero_le _) _) rfl (Prod.lex_def.mpr (.inl ?_))
          rw [hpending]
          exact Nat.lt_succ_self _
  · next thread hplace =>
      cases h
      split
      · exact hlook hplace (Nat.lt_succ_self 6) fun _ => rfl
      · exact hlook hplace (Nat.zero_lt_succ 6) fun _ => rfl
  · next thread hplace =>
      split at h
      · cases h
        split
        · exact hlook hplace (Nat.zero_lt_succ 5) fun _ => rfl
        · exact hlook hplace (Nat.lt_succ_self 5) fun _ => rfl
      · cases h
        exact hlook hplace (Nat.zero_lt_succ 5) fun _ => rfl
  · next thread hplace =>
      split at h
      · cases h
        exact closer_of_inspect hplace _
      · cases h
        exact hlook hplace (Nat.zero_lt_succ 4) fun _ => rfl
  · next thread frames hplace =>
      split at h
      · cases h
        exact hlook hplace (Nat.lt_succ_self 3) fun _ => rfl
      · cases h
        exact hlook hplace (Nat.zero_lt_succ 3) fun _ => rfl
  · next stop frame rest hplace =>
      cases h
      obtain ⟨hworld, hasked⟩ := x.world.remaining_showFrame frame
      refine closer_of_attention ?_ hworld (Prod.lex_def.mpr (.inr ⟨rfl, Prod.lex_def.mpr (.inr ⟨?_, ?_⟩)⟩))
      · refine Nat.add_le_add (Nat.le_of_eq ?_) (Nat.zero_le _)
        exact congrArg (fun asked : Bool => 2 * (k.maxStops - x.handled) + if asked then 0 else 1) hasked
      · rw [hplace]
        rfl
      · rw [hplace]
        exact Nat.lt_succ_self _
  · next stop hplace =>
      cases h
      refine closer_of_attention ?_ rfl (hplace ▸ hnearer (Nat.lt_succ_self 2))
      -- One stop more was shown, which leaves room for one command less.
      have hroom (asked : Nat) : 2 * (k.maxStops - (x.handled + 1)) + asked +
          (if decide (x.handled + 1 < k.maxStops) then 1 else 0) ≤ 2 * (k.maxStops - x.handled) + asked := by
        split
        · next hbelow =>
            have : x.handled + 1 < k.maxStops := of_decide_eq_true hbelow
            omega
        · omega
      exact Nat.le_trans (hroom _) (Nat.le_add_right _ _)
  · next thread hplace =>
      cases h
      exact closer_of_answer hplace
  · next c hplace =>
      cases h
      exact closer_of_send hplace
  · cases h

/-- **Every step**, whoever makes it. -/
theorem closer_of_step {party : Party} (h : Step k x party y) : Closer k y x := by
  cases h with
  | dispatcher h =>
      obtain ⟨next, hd, rfl⟩ := Option.map_eq_some_iff.mp h
      exact closer_of_advance (World.closer_of_dispatchStep? hd) (World.terminateRequested_dispatchStep? hd)
  | script h =>
      obtain ⟨next, hj, rfl⟩ := Option.map_eq_some_iff.mp h
      exact closer_of_advance (World.closer_of_jobStep? hj) (World.terminateRequested_jobStep? hj)
  | controller h => exact closer_of_attend h

end

/-- Has the controller been refused something? That ends a run at once. -/
def isBroken (x : Watch) : Bool :=
  match x.attention with
  | .finished (.error _) => true
  | _ => false

/-- The next step, and who makes it: the dispatcher if it can, else the script, else the controller. -/
def next? (k : Controller) (x : Watch) : Option (Party × Watch) :=
  if x.isBroken then none
  else match x.dispatch? with
    | some y => some (.dispatcher, y)
    | none => match x.work? with
      | some y => some (.script, y)
      | none => (x.attend? k).map (.controller, ·)

theorem step_of_next? {k : Controller} {x y : Watch} {party : Party} (h : x.next? k = some (party, y)) :
    Step k x party y := by
  unfold next? at h
  split at h
  · cases h
  · split at h
    · next hd =>
        cases h
        exact .dispatcher hd
    · split at h
      · next hj =>
          cases h
          exact .script hj
      · obtain ⟨z, hz, hy⟩ := Option.map_eq_some_iff.mp h
        cases hy
        exact .controller hz

/-- Steps until there is none left. -/
def run (k : Controller) (x : Watch) : Watch :=
  match _h : x.next? k with
  | none => x
  | some (_, y) => run k y
termination_by (wellFounded_closer k).wrap x
decreasing_by exact closer_of_step (step_of_next? (by assumption))

end Watch

end Pausepoint
