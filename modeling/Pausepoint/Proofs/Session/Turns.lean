import Pausepoint.Proofs.Execution
import Pausepoint.Proofs.Session.Concord

/-!
# Pausepoint.Proofs.Session.Turns

Gate and target agree on every report, and a thread and its decisions take turns.

A session is taken here in whole steps: a report with its admission and queueing, a call of
the control side, and the dispatch of one event from end to end. `Session.Atomic` is the step
relation, in any order, without `abandonPause` and without the dispatch of `terminate`.

* `gate_and_target_agree` — the main result: the target accepts every report that it is
  given, since it finds the thread as the report says, and per thread there is a fixed turn of
  a pause that is reported, its arrival, and a decision that is delivered;
* `Beat`, `Follows` — that turn;
* `Ledger` — the invariant, which tells from the session whose turn it is.
-/

namespace Pausepoint

/-! ### Whole steps -/

namespace Session

/-- The event that is dispatched next, if any will be without waiting. -/
def nextEvent? (s : Session) : Option Event :=
  match s.queue.next with
  | .event e _ => some e
  | .none | .wait => none

/-- What happened in a whole step. -/
inductive Act
  /-- Something was reported, and this was the reply. -/
  | report (n : Notification) (reply : Reply)
  /-- The control side made a call. -/
  | call (c : ControlCall)
  /-- The dispatcher handled an event, if there was one, by these tasks. -/
  | dispatch (e : Option Event) (tasks : List Task)

/-- One step of a session, in one piece. -/
inductive Atomic : Session → Act → Session → Prop
  | report (s : Session) (n : Notification) : Atomic s (.report n (s.notify n).1) (s.notify n).2
  | call (s : Session) (c : ControlCall) : Atomic s (.call c) (c.run s)
  | dispatch {s s' : Session} {tasks : List Task} (h : s.dispatch? = some (tasks, s'))
      (hterm : s.nextEvent? ≠ some (.command .terminate)) :
      Atomic s (.dispatch s.nextEvent? tasks) s'

end Session

/-! ### Acceptance by the target -/

namespace Target

/-- The target acts on a report and does not drop it: the session runs, and the thread makes
the transition that the report asks for. -/
def Accepts (t : Target) : Notification → Prop
  | .scriptReady id _ _ => t.state = .running ∧
      (transition? { t with registry := (t.registry.contact id).2 } id
        (DebugThread.suspend · .scriptLoaded)).isSome
  | .stackFrames id frames => t.state = .running ∧
      (t.transition? id (DebugThread.replaceFrames · (t.shown frames))).isSome
  | .suspended id _ reason => t.state = .running ∧
      (t.transition? id (DebugThread.suspend · reason)).isSome
  | .resumed id mode => t.state = .running ∧
      (t.transition? id (DebugThread.noteResumed · mode)).isSome
  | .engineStarted | .engineTerminated => True

/-- What finds its thread as it should is accepted. -/
theorem accepts_of_finds {t : Target} (hr : t.registry.Indexed) (hrun : t.state = .running)
    {n : Notification} {id : ThreadId} (hid : n.thread? = some id) (h : n.Finds (t.stateOf id)) :
    t.Accepts n := by
  cases n with
  | engineStarted => trivial
  | engineTerminated => trivial
  | scriptReady thread script root =>
      obtain rfl := Option.some.inj hid
      obtain ⟨next, hnext, -⟩ := suspend_after_contact hr h
      exact ⟨hrun, by rw [hnext]; rfl⟩
  | stackFrames | suspended | resumed =>
      obtain rfl := Option.some.inj hid
      obtain ⟨s, hs, hruns⟩ := h
      obtain ⟨thread, hthread, rfl⟩ := exists_thread_of_stateOf hs
      refine ⟨hrun, ?_⟩
      rcases hruns with h | h <;>
        simp [transition?, hthread, h, DebugThread.replaceFrames, DebugThread.suspend,
          DebugThread.noteResumed, Except.toOption]

end Target

/-! ### Turns -/

/-- What happens to a thread, in turn. -/
inductive Beat
  /-- The gate admits a pause of it. -/
  | reported
  /-- The target handles the pause. -/
  | suspended
  /-- The client of the execution side is given a decision on it. -/
  | decided
  deriving DecidableEq, Repr

/-- What comes after it. -/
def Beat.next : Beat → Beat
  | .reported => .suspended
  | .suspended => .decided
  | .decided => .reported

/-- From one beat on, each is what comes after the one before. -/
def Follows : Beat → List Beat → Prop
  | _, [] => True
  | first, beat :: rest => beat = first ∧ Follows first.next rest

/-- The beat that is due after some others. -/
def dueAfter (first : Beat) (beats : List Beat) : Beat :=
  beats.foldl (fun _ beat => beat.next) first

theorem follows_snoc {first beat : Beat} {beats : List Beat} (h : Follows first beats)
    (hdue : dueAfter first beats = beat) : Follows first (beats ++ [beat]) := by
  induction beats generalizing first with
  | nil => exact ⟨hdue.symm, trivial⟩
  | cons head rest ih =>
      obtain ⟨rfl, hrest⟩ := h
      exact ⟨rfl, ih hrest hdue⟩

@[simp] theorem dueAfter_snoc (first beat : Beat) (beats : List Beat) :
    dueAfter first (beats ++ [beat]) = beat.next := by
  simp [dueAfter]

/-- The decision on a thread that a task gives to the client, if it does. -/
def Task.beat? (id : ThreadId) : Task → Option Beat
  | .command (.resume thread _) => if thread = id then some .decided else none
  | _ => none

/-- What happened to a thread in a step. -/
def Session.Act.beats (id : ThreadId) : Session.Act → List Beat
  | .report n (.ok ()) => if n.isPause ∧ n.thread? = some id then [.reported] else []
  | .report _ (.error _) => []
  | .call _ => []
  | .dispatch e tasks =>
      (match e with
        | some (.notification n) => if n.isPause ∧ n.thread? = some id then [.suspended] else []
        | _ => []) ++ tasks.filterMap (Task.beat? id)

/-- What happened to a thread so far. -/
def beatsOf (id : ThreadId) (trace : List Session.Act) : List Beat :=
  trace.flatMap (Session.Act.beats id)

theorem beatsOf_snoc (id : ThreadId) (trace : List Session.Act) (act : Session.Act) :
    beatsOf id (trace ++ [act]) = beatsOf id trace ++ act.beats id := by
  simp [beatsOf]

/-! ### Whose turn it is -/

/-- The beat that is due, told from the state of a thread and its lane. -/
def dueOf (state : Option ThreadState) (ns : List Notification) : Beat :=
  if state = some .suspended then .decided
  else if settled state ns = some .suspended then .suspended
  else .reported

namespace Agreement

variable {g g' : Gate} {id : ThreadId} {state : Option ThreadState} {ns : List Notification}
  {n : Notification} {releasing : Prop}

/-- Who may report is not suspended, and nothing in its lane will suspend it. -/
theorem free_of_accept (h : Agreement g id state ns releasing) (hid : n.thread? = some id)
    (ha : g.accept n = .ok g') :
    state ≠ some .suspended ∧ settled state ns ≠ some .suspended := by
  have hns := h.not_suspended_of_accept hid ha
  refine ⟨?_, hns⟩
  rintro rfl
  rw [eq_nil_of_fits_suspended h.own h.fits] at hns
  exact hns rfl

theorem due_of_accept (h : Agreement g id state ns releasing) (hid : n.thread? = some id)
    (ha : g.accept n = .ok g') : dueOf state ns = .reported := by
  obtain ⟨hstate, hsettled⟩ := h.free_of_accept hid ha
  rw [dueOf, if_neg hstate, if_neg hsettled]

/-- After an admission the arrival of a pause is due, or the next one may be reported. -/
theorem due_admitted (h : Agreement g id state ns releasing) (hid : n.thread? = some id)
    (ha : g.accept n = .ok g') :
    dueOf state (ns ++ [n]) = if n.isPause = true then .suspended else .reported := by
  obtain ⟨hstate, hsettled⟩ := h.free_of_accept hid ha
  simp only [dueOf, if_neg hstate, settled_append, settled_cons, settled_nil,
    leads_eq_suspended_iff hid hsettled]

/-- The arrival of a pause is due when it arrives, and a decision is due after it. -/
theorem due_arrive (h : Agreement g id state (n :: ns) releasing) :
    if n.isPause = true then dueOf state (n :: ns) = .suspended ∧ dueOf (n.leads state) ns = .decided
    else dueOf (n.leads state) ns = dueOf state (n :: ns) := by
  have hid : n.thread? = some id := h.own n List.mem_cons_self
  have hstate : state ≠ some .suspended := by
    rintro rfl
    cases eq_nil_of_fits_suspended h.own h.fits
  split
  · next hp =>
      have hlead := (leads_eq_suspended_iff hid hstate).mpr hp
      have hsettled := settled_of_pause h.own h.fits List.mem_cons_self hp
      exact ⟨by rw [dueOf, if_neg hstate, if_pos hsettled], by rw [dueOf, if_pos hlead]⟩
  · next hp =>
      have hlead := mt (leads_eq_suspended_iff hid hstate).mp hp
      rw [dueOf, dueOf, if_neg hlead, if_neg hstate, settled_cons]

end Agreement

namespace Session

/-- The beat that is due for a thread. -/
def dueBeat (s : Session) (id : ThreadId) : Beat :=
  dueOf (s.target.stateOf id) (lane id s.queue.events)

/-- The invariant of whole steps. -/
structure Ledger (trace : List Act) (s : Session) : Prop where
  concord : s.Concord
  /-- Between whole steps nothing is left to do. -/
  idle : s.worker.agenda = []
  /-- A session that is not live takes nothing and hands out nothing. -/
  shut : ¬ s.IsLive → s.queue.closed = true ∧ s.nextEvent? = none
  follows : ∀ id, Follows .reported (beatsOf id trace)
  due : s.IsLive → ∀ id, dueAfter .reported (beatsOf id trace) = s.dueBeat id

theorem ledger_create (settings : DebuggerSettings) : Ledger [] (create settings) where
  concord := concord_create settings
  idle := rfl
  shut hl := absurd ⟨nofun, rfl⟩ hl
  follows _ := trivial
  due _ _ := rfl

/-- A step of a session that is not live, in which nothing happens to anyone. -/
theorem Ledger.dead {trace : List Act} {s s' : Session} {act : Act} (h : Ledger trace s)
    (hbeats : ∀ id, act.beats id = []) (hconcord : s'.Concord) (hidle : s'.worker.agenda = [])
    (hdead : ¬ s'.IsLive) (hshut : s'.queue.closed = true ∧ s'.nextEvent? = none) :
    Ledger (trace ++ [act]) s' where
  concord := hconcord
  idle := hidle
  shut _ := hshut
  follows id := by
    rw [beatsOf_snoc, hbeats, List.append_nil]
    exact h.follows id
  due hl := absurd hl hdead

/-- **A step of a live session** in which to each thread either nothing happens or what is due. -/
theorem Ledger.step {trace : List Act} {s s' : Session} {act : Act} (h : Ledger trace s)
    (hl : s.IsLive) (hconcord : s'.Concord) (hidle : s'.worker.agenda = [])
    (hshut : ¬ s'.IsLive → s'.queue.closed = true ∧ s'.nextEvent? = none)
    (hbeat : ∀ id, (act.beats id = [] ∧ (s'.IsLive → s'.dueBeat id = s.dueBeat id)) ∨
      ∃ beat, act.beats id = [beat] ∧ s.dueBeat id = beat ∧
        (s'.IsLive → s'.dueBeat id = beat.next)) :
    Ledger (trace ++ [act]) s' := by
  refine ⟨hconcord, hidle, hshut, fun id => ?_, fun hl' id => ?_⟩
  · rw [beatsOf_snoc]
    rcases hbeat id with ⟨hnone, -⟩ | ⟨beat, hone, hdue, -⟩
    · rw [hnone, List.append_nil]
      exact h.follows id
    · rw [hone]
      exact follows_snoc (h.follows id) ((h.due hl id).trans hdue)
  · rw [beatsOf_snoc]
    rcases hbeat id with ⟨hnone, hsame⟩ | ⟨beat, hone, -, hnext⟩
    · rw [hnone, List.append_nil, hsame hl']
      exact h.due hl id
    · rw [hone, dueAfter_snoc, hnext hl']

/-! ### Each kind of step -/

/-- A closed queue gets nothing. -/
theorem notify_of_closed {s : Session} (h : s.queue.closed = true) (n : Notification) :
    (∃ cause, (s.notify n).1 = .error cause) ∧ (s.notify n).2.queue = s.queue ∧
      (s.notify n).2.target = s.target ∧ (s.notify n).2.worker = s.worker := by
  unfold notify
  split
  · next cause _ => exact ⟨⟨cause, rfl⟩, rfl, rfl, rfl⟩
  · simp [EventQueue.submit, h]

theorem ledger_report {trace : List Act} {s : Session} (h : Ledger trace s) (n : Notification) :
    Ledger (trace ++ [.report n (s.notify n).1]) (s.notify n).2 := by
  have hconcord := concord_notify h.concord n
  by_cases hl : s.IsLive
  · have ha := h.concord hl
    obtain ⟨cause, -, hn⟩ | ⟨gate, hgate, hn⟩ := notify_cases ha.queue_open n
    · rw [hn] at hconcord ⊢
      exact h.step hl hconcord h.idle h.shut fun id => .inl ⟨rfl, fun _ => rfl⟩
    · have hlive : (s.notify n).2.IsLive := by
        rcases hn with hn | ⟨-, hn⟩ <;> rw [hn] <;> exact ⟨hl.target, hl.queue⟩
      have hidle : (s.notify n).2.worker.agenda = [] := by
        rcases hn with hn | ⟨-, hn⟩ <;> rw [hn] <;> exact h.idle
      have hreply : (s.notify n).1 = .ok () := by
        rcases hn with hn | ⟨-, hn⟩ <;> rw [hn]
      refine h.step hl hconcord hidle (fun hdead => absurd hlive hdead) fun id => ?_
      have hon := ha.agreesOn id
      by_cases hid : n.thread? = some id
      · have hbefore : s.dueBeat id = .reported := hon.due_of_accept hid hgate
        rcases hn with hn | ⟨hmem, hn⟩
        · have hafter : (s.notify n).2.dueBeat id =
              if n.isPause = true then .suspended else .reported := by
            rw [hn, dueBeat, lane_append, lane_cons_self hid, lane_nil]
            exact hon.due_admitted hid hgate
          cases hp : n.isPause with
          | true =>
              refine .inr ⟨.reported, ?_, hbefore, fun _ => by rw [hafter, if_pos hp]; rfl⟩
              simp [Act.beats, hreply, hp, hid]
          | false =>
              refine .inl ⟨?_, fun _ => by rw [hafter, hbefore, if_neg (by simp [hp])]⟩
              simp [Act.beats, hreply, hp]
        · have hp : ¬ n.isPause = true := fun hp => (hon.free_of_accept hid hgate).2
            (settled_of_pause hon.own hon.fits (mem_lane.mpr ⟨hmem, hid⟩) hp)
          refine .inl ⟨by simp [Act.beats, hreply, hp], fun _ => by rw [hn]; rfl⟩
      · refine .inl ⟨by simp [Act.beats, hreply, hid], fun _ => ?_⟩
        rcases hn with hn | ⟨-, hn⟩
        · rw [hn, dueBeat, lane_append, lane_cons_of_ne hid, lane_nil, List.append_nil]
          rfl
        · rw [hn]
          rfl
  · obtain ⟨⟨cause, hcause⟩, hq, -, hw⟩ := notify_of_closed (h.shut hl).1 n
    refine h.dead (fun id => by rw [hcause]; rfl) hconcord (by rw [hw]; exact h.idle)
      (fun hl' => hl (isLive_notify.mp hl')) ?_
    rw [nextEvent?, hq]
    exact h.shut hl

/-- A call of the control side. -/
theorem ledger_call {trace : List Act} {s : Session} (h : Ledger trace s) (c : ControlCall) :
    Ledger (trace ++ [.call c]) (c.run s) := by
  have hconcord := concord_call h.concord c
  by_cases hc : c = .cancel
  · subst hc
    have hcancelled : s.cancel.queue.cancelled = true ∧
        (s.queue.closed = true ∨ s.queue.cancelled = false → s.cancel.queue.closed = true) := by
      unfold cancel EventQueue.cancel
      split
      · next hs => exact ⟨hs, fun hor => hor.resolve_right (by simp [hs])⟩
      · exact ⟨rfl, fun _ => rfl⟩
    refine h.dead (fun _ => rfl) hconcord h.idle
      (fun hl => absurd hl.queue (by simp [ControlCall.run, hcancelled.1])) ⟨hcancelled.2 ?_, ?_⟩
    · cases hs : s.queue.cancelled with
      | false => exact .inr rfl
      | true => exact .inl (h.shut fun hl => absurd hl.queue (by simp [hs])).1
    · simp [nextEvent?, EventQueue.next, ControlCall.run, hcancelled.1]
  · obtain ⟨cs, hcs⟩ := ControlCall.commanded s c hc
    have hidle : (c.run s).worker.agenda = [] := by rw [hcs.worker]; exact h.idle
    by_cases hl : s.IsLive
    · have hlive := hcs.isLive.mpr hl
      refine h.step hl hconcord hidle (fun hdead => absurd hlive hdead) fun id =>
        .inl ⟨rfl, fun _ => ?_⟩
      rw [dueBeat, hcs.events, lane_append, lane_commands, List.append_nil,
        hcs.target.stateOf (h.concord hl).indexed]
      rfl
    · obtain ⟨hclosed, hnext⟩ := h.shut hl
      have hsame : (c.run s).queue = s.queue := by rw [hcs.queue, hcs.closed hclosed]; simp
      refine h.dead (fun _ => rfl) hconcord hidle (fun hl' => hl (hcs.isLive.mp hl')) ?_
      rw [nextEvent?, hsame]
      exact ⟨hclosed, hnext⟩

/-- A dispatched command gives the client a decision if it is one and is delivered. -/
theorem beats_commandTasks (id : ThreadId) (c : Command) (effects : Effects) :
    (commandTasks c effects).filterMap (Task.beat? id) =
      if effects.deliver then (Task.beat? id (.command c)).toList else [] := by
  have hcallbacks : (effects.callbacks.map Task.callback).filterMap (Task.beat? id) = [] := by
    simp [List.filterMap_map, Function.comp_def, Task.beat?]
  have hfollowUps : (effects.followUps.map Task.followUp).filterMap (Task.beat? id) = [] := by
    simp [List.filterMap_map, Function.comp_def, Task.beat?]
  unfold commandTasks
  split
  · have hend : ∀ tail : List Task, tail.filterMap (Task.beat? id) = [] →
        ([Task.command c, .forward c] ++ tail).filterMap (Task.beat? id) =
          (Task.beat? id (.command c)).toList := by
      intro tail htail
      have hforward : Task.beat? id (.forward c) = none := rfl
      rw [List.filterMap_append, htail, List.append_nil, List.filterMap_cons, List.filterMap_cons,
        hforward, List.filterMap_nil]
      cases Task.beat? id (.command c) <;> rfl
    rw [List.append_assoc, List.filterMap_append, List.filterMap_append, List.filterMap_append,
      hcallbacks, hfollowUps, hend]
    · cases c <;> simp [releaseTasks, Task.beat?]
    · split <;> simp [closing, Task.beat?]
  · rw [List.filterMap_append, hcallbacks, hfollowUps]
    rfl

/-- The handling of a report gives the client no decision. -/
theorem beats_notificationTasks (id : ThreadId) (n : Notification) (effects : Effects) :
    (notificationTasks n effects).filterMap (Task.beat? id) = [] := by
  rw [List.filterMap_eq_nil_iff]
  intro task htask
  unfold notificationTasks closing at htask
  simp only [List.mem_append, List.mem_map] at htask
  rcases htask with (⟨c, -, rfl⟩ | ⟨c, -, rfl⟩) | htask
  · rfl
  · rfl
  · split at htask <;> simp only [List.mem_cons, List.not_mem_nil, or_false] at htask
    rcases htask with rfl | rfl | rfl | rfl | rfl <;> rfl

theorem nextEvent?_eq {s : Session} (hl : s.IsLive) {e : Event} {rest : List Event}
    (h : s.queue.events = e :: rest) : s.nextEvent? = some e := by
  simp [nextEvent?, EventQueue.next, hl.queue, h]

/-- A closed queue that holds nothing hands out nothing. -/
theorem nextEvent?_of_empty {s : Session} (h : s.queue.closed = true ∧ s.queue.events = []) :
    s.nextEvent? = none := by
  unfold nextEvent? EventQueue.next
  split
  · next e rest heq =>
      split at heq
      · cases heq
      · simp [h.1, h.2] at heq
  · rfl
  · rfl

/-- A dispatcher whose session is not live only closes. -/
theorem take?_of_dead {s s' : Session} (hnext : s.nextEvent? = none) (hs : s.take? = some s') :
    s' = s.withAgenda (closing .cancelled) := by
  unfold take? at hs
  split at hs
  · cases hq : s.queue.next with
    | event e queue => simp [nextEvent?, hq] at hnext
    | wait => simp [hq] at hs
    | none =>
        simp only [hq, Option.some.injEq] at hs
        exact hs.symm
  · cases hs

/-- A report that is dispatched arrives, if it is a pause, when its arrival is due. -/
theorem beat_of_report {s s' : Session} (ha : s.Agrees) (hl : s.IsLive) {n : Notification}
    {rest : List Event} (hevents : s.queue.events = .notification n :: rest)
    (htarget : s'.target = (s.target.handleNotification s.breakpoints n).2)
    (hlane : s'.IsLive → ∀ id, lane id s'.queue.events = lane id rest) (id : ThreadId) :
    let act := Act.dispatch (some (.notification n)) (s.tasksAfter (.notification n))
    (act.beats id = [] ∧ (s'.IsLive → s'.dueBeat id = s.dueBeat id)) ∨
      ∃ beat, act.beats id = [beat] ∧ s.dueBeat id = beat ∧
        (s'.IsLive → s'.dueBeat id = beat.next) := by
  intro act
  have hbeats : act.beats id = if n.isPause ∧ n.thread? = some id then [.suspended] else [] := by
    simp [act, Act.beats, tasksAfter, beats_notificationTasks]
  have hon := ha.agreesOn id
  rw [AgreesOn, hevents] at hon
  cases hid : n.thread? with
  | none =>
      rw [lane_cons_of_ne (by simp [hid])] at hon
      refine .inl ⟨by rw [hbeats, if_neg (by simp [hid])], fun hl' => ?_⟩
      have hlive := hl'.target
      rw [htarget] at hlive
      have hstate : s'.target.stateOf id = s.target.stateOf id := by
        rw [htarget]
        cases n with
        | engineStarted =>
            cases hs : s.target.state <;> simp [Target.handleNotification, hs, Target.stateOf, Target.thread?]
        | engineTerminated =>
            exact absurd (Target.state_handleNotification_engineTerminated _ _) hlive
        | scriptReady | stackFrames | suspended | resumed => cases hid
      rw [dueBeat, dueBeat, hstate, hlane hl', hevents, lane_cons_of_ne (by simp [hid])]
  | some thread =>
      obtain ⟨hrun, hfinds⟩ := ha.head_finds hl hevents hid
      obtain ⟨next, hm, hnext, -⟩ := Target.moves_of_finds ha.indexed hrun s.breakpoints hid hfinds
      rw [← htarget] at hm
      by_cases he : thread = id
      · subst he
        rw [lane_cons_self hid] at hon
        -- What is due is read off the state and the lane, and the report moves from one to the other.
        have hdue := hon.due_arrive
        have hbefore : s.dueBeat thread = dueOf (s.target.stateOf thread) (n :: lane thread rest) := by
          rw [dueBeat, hevents, lane_cons_self hid]
        have hafter : s'.IsLive →
            s'.dueBeat thread = dueOf (n.leads (s.target.stateOf thread)) (lane thread rest) := by
          intro hl'
          rw [dueBeat, hlane hl', hm.stateOf_self, hnext]
        cases hp : n.isPause with
        | true =>
            rw [if_pos hp] at hdue
            refine .inr ⟨.suspended, by rw [hbeats, if_pos ⟨hp, hid⟩], hbefore.trans hdue.1, ?_⟩
            exact fun hl' => (hafter hl').trans hdue.2
        | false =>
            rw [if_neg (by simp [hp])] at hdue
            refine .inl ⟨by rw [hbeats, if_neg (by simp [hp])], fun hl' => ?_⟩
            rw [hafter hl', hbefore, hdue]
      · have hne : n.thread? ≠ some id := by rw [hid]; exact fun h => he (Option.some.inj h)
        refine .inl ⟨by rw [hbeats, if_neg (by simp [hid, he])], fun hl' => ?_⟩
        rw [dueBeat, dueBeat, hlane hl', hm.stateOf_of_ne (Ne.symm he), hevents, lane_cons_of_ne hne]

/-- A decision that is dispatched is delivered when it is due, and dropped otherwise. -/
theorem beat_of_command {s s' : Session} (ha : s.Agrees) (hl : s.IsLive) {c : Command}
    {rest : List Event} (hevents : s.queue.events = .command c :: rest)
    (htarget : s'.target = (s.target.handleCommand c).2)
    (hlane : s'.IsLive → ∀ id, lane id s'.queue.events = lane id rest) (id : ThreadId) :
    let act := Act.dispatch (some (.command c)) (s.tasksAfter (.command c))
    (act.beats id = [] ∧ (s'.IsLive → s'.dueBeat id = s.dueBeat id)) ∨
      ∃ beat, act.beats id = [beat] ∧ s.dueBeat id = beat ∧
        (s'.IsLive → s'.dueBeat id = beat.next) := by
  intro act
  have hbeats : act.beats id = if (s.target.handleCommand c).1.deliver
      then (Task.beat? id (.command c)).toList else [] := by
    simp only [act, Act.beats, tasksAfter, List.nil_append, beats_commandTasks]
  have hon := ha.agreesOn id
  rw [AgreesOn, hevents, lane_cons_command] at hon
  have hbefore : s.dueBeat id = dueOf (s.target.stateOf id) (lane id rest) := by
    rw [dueBeat, hevents, lane_cons_command]
  have hafter : s'.IsLive → s'.dueBeat id = dueOf (s'.target.stateOf id) (lane id rest) := by
    intro hl'
    rw [dueBeat, hlane hl']
  have hterm := isTerminated_eq_false hl
  cases c with
  | terminate | setBreakpoint =>
      have hsame : s'.target = s.target := by
        rw [htarget]
        simp [Target.handleCommand, hterm]
      refine .inl ⟨by rw [hbeats]; simp [Task.beat?], fun hl' => ?_⟩
      rw [hafter hl', hbefore, hsame]
  | disconnect =>
      refine .inl ⟨by rw [hbeats]; simp [Task.beat?], fun hl' => absurd ?_ hl'.target⟩
      rw [htarget]
      exact Target.state_handleCommand_disconnect hl.target
  | resume thread mode =>
      by_cases hs : s.target.stateOf thread = some .suspended
      · obtain ⟨next, hm, hnext, heffects⟩ := Target.moves_of_resume ha.indexed hterm mode hs
        rw [← htarget] at hm
        by_cases he : thread = id
        · subst he
          rw [hs] at hon hbefore
          -- Who is suspended has nothing queued, so the decision is what is due.
          have hnil := eq_nil_of_fits_suspended hon.own hon.fits
          refine .inr ⟨.decided, by rw [hbeats, heffects]; simp [Task.beat?], hbefore, fun hl' => ?_⟩
          have hruns : some mode.resultingState ≠ some .suspended :=
            fun h => mode.runs_resultingState.ne_suspended (Option.some.inj h)
          rw [hafter hl', hm.stateOf_self, hnext, hnil, dueOf, settled_nil, if_neg hruns, if_neg hruns]
          rfl
        · refine .inl ⟨by rw [hbeats]; simp [Task.beat?, he], fun hl' => ?_⟩
          rw [hafter hl', hbefore, hm.stateOf_of_ne (Ne.symm he)]
      · rw [Target.handleCommand_resume_of_ne mode hs] at hbeats htarget
        refine .inl ⟨by rw [hbeats]; rfl, fun hl' => ?_⟩
        rw [hafter hl', hbefore, htarget]

/-- The dispatch of an event, other than `terminate`. -/
theorem ledger_dispatch {trace : List Act} {s s' : Session} {tasks : List Task}
    (h : Ledger trace s) (hs : s.dispatch? = some (tasks, s'))
    (hterm : s.nextEvent? ≠ some (.command .terminate)) :
    Ledger (trace ++ [.dispatch s.nextEvent? tasks]) s' := by
  obtain ⟨taken, htake, hfinish⟩ := Option.map_eq_some_iff.mp hs
  obtain ⟨rfl, rfl⟩ : taken.worker.agenda = tasks ∧ taken.finishAgenda.2 = s' := Prod.mk.inj hfinish
  have hidle : taken.finishAgenda.2.worker.agenda = [] := by rw [finishAgenda_eq]; rfl
  by_cases hl : s.IsLive
  · have ha := h.concord hl
    -- The request to end is excluded: it releases pauses that the target still has.
    have hhead : s.queue.events.head? ≠ some (.command .terminate) := by
      cases hevents : s.queue.events with
      | nil => nofun
      | cons e rest => rwa [nextEvent?_eq hl hevents] at hterm
    have htaken := concord_take h.concord htake hhead
    have hconcord := concord_dispatch h.concord hs hhead
    have hlane : taken.finishAgenda.2.IsLive → ∀ id,
        lane id taken.finishAgenda.2.queue.events = lane id taken.queue.events :=
      fun hl' id => lane_finishAgenda htaken (isLive_finishAgenda.mp hl') id
    obtain ⟨-, e, rest, hevents, rfl⟩ := take?_open ha.queue_open hl.queue htake
    have htarget : ((s.withEvents rest).handle e).finishAgenda.2.target = s.targetAfter e := by
      rw [target_finishAgenda, target_handle, targetAfter_withEvents]
    rw [nextEvent?_eq hl hevents, agenda_handle, tasksAfter_withEvents]
    refine h.step hl hconcord hidle (fun hdead => ?_) ?_
    -- A session that is dead after an event it could take was ended by it.
    · have hends : (s.targetAfter e).state = .terminated := by
        by_cases hstill : (s.targetAfter e).state = .terminated
        · exact hstill
        · refine absurd (isLive_finishAgenda.mpr ⟨?_, ?_⟩) hdead
          · simpa using hstill
          · simpa using hl.queue
      obtain ⟨before, exit, htasks⟩ := tasksAfter_closing hl hends
      have hagenda : ((s.withEvents rest).handle e).worker.agenda = before ++ closing exit := by
        rw [agenda_handle, tasksAfter_withEvents, htasks]
      have hclosed := finishAgenda_closing hagenda
      exact ⟨hclosed.1, nextEvent?_of_empty hclosed⟩
    · cases e with
      | notification n =>
          exact beat_of_report ha hl hevents htarget fun hl' id => by simpa using hlane hl' id
      | command c =>
          exact beat_of_command ha hl hevents htarget fun hl' id => by simpa using hlane hl' id
  · obtain ⟨hclosed, hnext⟩ := h.shut hl
    obtain rfl := take?_of_dead hnext htake
    have hagenda : (s.withAgenda (closing .cancelled)).worker.agenda = [] ++ closing .cancelled := rfl
    have hshut := finishAgenda_closing hagenda
    have hdead : ¬ (s.withAgenda (closing .cancelled)).finishAgenda.2.IsLive := fun hl' =>
      hl ⟨(isLive_finishAgenda.mp hl').target, (isLive_finishAgenda.mp hl').queue⟩
    refine h.dead (fun id => ?_) (fun hl' => absurd hl' hdead) hidle hdead
      ⟨hshut.1, nextEvent?_of_empty hshut⟩
    rw [hnext]
    rfl

/-- **The invariant of whole steps** holds throughout. -/
theorem ledger_of_execution {settings : DebuggerSettings} {trace : List Act} {s : Session}
    (h : Execution Atomic (create settings) trace s) : Ledger trace s :=
  h.invariant (ledger_create settings) fun {_ _ _ _} _ hledger hstep => by
    cases hstep with
    | report n => exact ledger_report hledger n
    | call c => exact ledger_call hledger c
    | dispatch hs hterm => exact ledger_dispatch hledger hs hterm

/-- **Gate and target agree on every report.** Whatever is reported, called and dispatched, in
any order: a report about a thread that is dispatched, and so was admitted before, is accepted
by the target, since it finds the thread as it should, and leads the thread where it says. For
each thread, pauses that are admitted, their arrivals and decisions that are delivered take
turns, beginning with a pause. -/
theorem gate_and_target_agree (settings : DebuggerSettings) {trace : List Act} {s : Session}
    (h : Execution Atomic (create settings) trace s) :
    (∀ n id tasks s', s.nextEvent? = some (.notification n) → n.thread? = some id →
      s.dispatch? = some (tasks, s') →
        s.target.Accepts n ∧ n.Finds (s.target.stateOf id) ∧
          s'.target.stateOf id = n.leads (s.target.stateOf id)) ∧
    ∀ id, Follows .reported (beatsOf id trace) := by
  have hledger := ledger_of_execution h
  refine ⟨fun n id tasks s' hnext hid hs => ?_, hledger.follows⟩
  by_cases hl : s.IsLive
  · have ha := hledger.concord hl
    obtain ⟨taken, htake, hfinish⟩ := Option.map_eq_some_iff.mp hs
    obtain ⟨-, e, rest, hevents, rfl⟩ := take?_open ha.queue_open hl.queue htake
    obtain rfl : e = .notification n := by
      rw [nextEvent?_eq hl hevents] at hnext
      exact Option.some.inj hnext
    obtain ⟨hrun, hfinds⟩ := ha.head_finds hl hevents hid
    obtain ⟨next, hm, hstate, -⟩ := Target.moves_of_finds ha.indexed hrun s.breakpoints hid hfinds
    refine ⟨Target.accepts_of_finds ha.indexed hrun hid hfinds, hfinds, ?_⟩
    have hsame : s'.target = (s.target.handleNotification s.breakpoints n).2 := by
      obtain rfl : ((s.withEvents rest).handle (.notification n)).finishAgenda.2 = s' :=
        congrArg Prod.snd hfinish
      rw [target_finishAgenda]
      rfl
    rw [hsame, hm.stateOf_self, hstate]
  · rw [(hledger.shut hl).2] at hnext
    cases hnext

/-- The session after one dispatch, if there is anything to dispatch. -/
def dispatched (s : Session) : Session :=
  (s.dispatch?.getD ([], s)).2

/-- The announcement of a first script by thread 1. -/
def firstLoad : Notification :=
  .scriptReady ⟨1⟩ { id := ⟨1⟩, title := "a", source := "x = 1", resource := some "a" } true

/-- A session whose engine has started. -/
def begun : Session :=
  ((create {}).notify .engineStarted).2.dispatched

/-- The same with a script that was announced. -/
def loading : Session :=
  (begun.notify firstLoad).2

/-- What happened up to there. -/
def loadingTrace : List Act :=
  [.report .engineStarted (.ok ()),
    .dispatch (some (.notification .engineStarted)) [.callback .sessionCreated],
    .report firstLoad (.ok ())]

theorem execution_loading : Execution Atomic (create {}) loadingTrace loading := by
  have hstart : Execution Atomic (create {}) _ _ := .next .start (.report _ .engineStarted)
  have hbegun : Execution Atomic (create {}) _ begun := .next hstart (.dispatch rfl nofun)
  exact .next hbegun (.report begun firstLoad)

/-- Gate and target agree on the announcement of a first script, and its arrival is due. -/
theorem gate_and_target_agree_loading :
    loading.target.Accepts firstLoad ∧ loading.dispatched.target.stateOf ⟨1⟩ = some .suspended ∧
      Follows .reported (beatsOf ⟨1⟩ loadingTrace) := by
  obtain ⟨hreports, hturns⟩ := gate_and_target_agree {} execution_loading
  obtain ⟨haccepts, -, hleads⟩ := hreports firstLoad ⟨1⟩ _ loading.dispatched rfl rfl rfl
  exact ⟨haccepts, hleads, hturns ⟨1⟩⟩

end Session

end Pausepoint
