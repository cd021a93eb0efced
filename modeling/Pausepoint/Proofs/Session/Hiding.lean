import Pausepoint.Proofs.Session.Occurrences
import Pausepoint.Proofs.Session.Release
import Pausepoint.Proofs.Session.Sightings

/-!
# Pausepoint.Proofs.Session.Hiding

Dynamic code that is not shown leaves no trace.

`hidden_code_does_not_leak` is the main result, for settings that hide dynamic code and keep equal events
apart. No frame of dynamic code is ever published; and two runs in which the same is asked, but for what is
hidden, look the same from outside and leave the same target behind.

* `Notification.bare` — a report without what is hidden of it: the dynamic frames of a stack, and the
  identity, title and source of a dynamic script;
* `Occurrence.ask` — what is asked of a session in a step: a call with all that is passed in it, a turn of
  the dispatcher, or a failure of client code. Two runs make the same calls in the same order, and the
  dispatcher takes its turns at the same moments, if the same is asked in them (`Ask.bare`: but for what is
  hidden);
* `Occurrence.seen` — what comes of it: an answer, a task that was done, a failure.

Proof shape: `Session.bare` forgets what is hidden in the queue, which is the only place where it ever is.
`Occurs.bare` says that every step is one of bare sessions, and `Occurs.unique` that what is asked decides
what occurs; so two runs that are the same when they are bare are followed by one and the same bare run.
-/

namespace Pausepoint

/-! ### Without what is hidden -/

/-- A snapshot without what is hidden of it: of a dynamic script nothing is left but that it is one. -/
def Snapshot.bare (s : Snapshot) : Snapshot :=
  if s.isDynamic then { id := ⟨0⟩, title := "", source := "", resource := none } else s

@[simp] theorem Snapshot.isDynamic_bare (s : Snapshot) : s.bare.isDynamic = s.isDynamic := by
  unfold Snapshot.bare
  split
  · next h => rw [h]; rfl
  · rfl

/-- The frames of a stack that are not dynamic. -/
def bareFrames (frames : List Frame) : List Frame :=
  frames.filter fun frame => !frame.isDynamic

@[simp] theorem bareFrames_idem (frames : List Frame) :
    bareFrames (bareFrames frames) = bareFrames frames := by
  simp [bareFrames]

/-- A report without what is hidden of it. -/
def Notification.bare : Notification → Notification
  | .scriptReady thread script root => .scriptReady thread script.bare root
  | .stackFrames thread frames => .stackFrames thread (bareFrames frames)
  | .suspended thread frames reason => .suspended thread (bareFrames frames) reason
  | .engineStarted => .engineStarted
  | .resumed thread mode => .resumed thread mode
  | .engineTerminated => .engineTerminated

/-- An event without what is hidden of it. -/
def Event.bare : Event → Event
  | .notification n => .notification n.bare
  | .command c => .command c

/-- A call without what is hidden of what is reported in it. -/
def Call.bare : Call → Call
  | .report n => .report n.bare
  | .abandonPause id => .abandonPause id
  | .control c => .control c

namespace Notification

@[simp] theorem bare_eq_engineTerminated (n : Notification) :
    n.bare = .engineTerminated ↔ n = .engineTerminated := by
  cases n <;> simp [bare]

end Notification

@[simp] theorem Event.kind_bare (e : Event) : e.bare.kind = e.kind := by
  cases e with
  | command c => rfl
  | notification n => cases n <;> rfl

/-! ### The gate and the target -/

/-- The gate admits a report whatever is hidden in it. -/
@[simp] theorem Gate.accept_bare (g : Gate) (n : Notification) : g.accept n.bare = g.accept n := by
  cases n <;> rfl

@[simp] theorem Gate.revoke_bare (g : Gate) (n : Notification) : g.revoke n.bare = g.revoke n := by
  cases n <;> rfl

namespace Target

variable {t : Target}

/-- **A target that hides dynamic code** does the same with a report whatever is hidden in it. -/
theorem handleNotification_bare (h : t.options.showDynamicCode = false) (store : BreakpointStore)
    (n : Notification) : t.handleNotification store n.bare = t.handleNotification store n := by
  have hshown (frames : List Frame) : t.shown (bareFrames frames) = t.shown frames := by
    simp only [shown, h, Bool.false_eq_true, if_false]
    exact bareFrames_idem frames
  have hready (id : ThreadId) (script : Snapshot) (root : Bool) :
      t.scriptReady store id script.bare root = t.scriptReady store id script root := by
    cases hdynamic : script.isDynamic with
    | true => simp [scriptReady, h, hdynamic]
    | false => rw [Snapshot.bare, if_neg (by simp [hdynamic])]
  cases n with
  | engineStarted | engineTerminated | resumed => rfl
  | scriptReady id script root =>
      cases hstate : t.state <;> simp only [Notification.bare, handleNotification, hstate, hready]
  | stackFrames id frames =>
      cases hstate : t.state <;>
        simp only [Notification.bare, handleNotification, stackFrames, hstate, hshown]
  | suspended id frames reason =>
      cases hstate : t.state <;>
        simp only [Notification.bare, handleNotification, suspended, hstate, hshown]

end Target

namespace Session

/-- A session without what is hidden in its queue. -/
def bare (s : Session) : Session :=
  s.withEvents (s.queue.events.map Event.bare)

/-- Dynamic code is hidden, and equal events are kept apart. -/
structure Discreet (s : Session) : Prop where
  hides : s.target.options.showDynamicCode = false
  apart : s.queue.dedupe = false

variable {s s' q q' : Session}

@[simp] theorem target_bare (s : Session) : s.bare.target = s.target := rfl

@[simp] theorem isTerminated_bare (s : Session) : s.bare.isTerminated = s.isTerminated := rfl

@[simp] theorem terminateRequested_bare (s : Session) :
    s.bare.terminateRequested = s.terminateRequested := rfl

@[simp] theorem breakpoints_bare (s : Session) : s.bare.breakpoints = s.breakpoints := rfl

@[simp] theorem worker_bare (s : Session) : s.bare.worker = s.worker := rfl

/-- What changes neither the options nor the rule against duplicates. -/
theorem Discreet.of_same (h : s.Discreet) (hoptions : s'.target.options = s.target.options)
    (hdedupe : s'.queue.dedupe = s.queue.dedupe) : s'.Discreet :=
  ⟨hoptions ▸ h.hides, hdedupe.trans h.apart⟩

/-! ### Calls -/

theorem submit_bare (h : s.Discreet) (e : Event) :
    s.bare.submit e.bare = ((s.submit e).1, (s.submit e).2.bare) := by
  cases hclosed : s.queue.closed with
  | true => simp [submit, EventQueue.submit, bare, withEvents, hclosed]
  | false => simp [submit, EventQueue.submit, bare, withEvents, hclosed, h.apart]

theorem Discreet.submit (h : s.Discreet) (e : Event) : (s.submit e).2.Discreet := by
  cases hclosed : s.queue.closed with
  | true => simpa [Session.submit, EventQueue.submit, hclosed] using h
  | false =>
      have hsubmit : (s.submit e).2 = s.withEvents (s.queue.events ++ [e]) := by
        simp [Session.submit, EventQueue.submit, hclosed, h.apart, withEvents]
      rw [hsubmit]
      exact h.of_same rfl rfl

theorem order_bare (h : s.Discreet) (c : Command) :
    s.bare.order c = ((s.order c).1, (s.order c).2.bare) ∧ (s.order c).2.Discreet := by
  have hsubmit := submit_bare h (.command c)
  have hafter := h.submit (.command c)
  change s.bare.submit (.command c) = _ at hsubmit
  unfold order
  rw [hsubmit]
  cases hs : s.submit (.command c) with
  | mk reply next =>
      rw [hs] at hafter
      cases reply <;> exact ⟨rfl, hafter⟩

theorem orderAll_bare (h : s.Discreet) (cs : List Command) :
    s.bare.orderAll cs = ((s.orderAll cs).1, (s.orderAll cs).2.bare) := by
  induction cs generalizing s with
  | nil => rfl
  | cons c rest ih =>
      obtain ⟨hone, hafter⟩ := order_bare h c
      unfold orderAll
      rw [hone]
      cases horder : s.order c with
      | mk reply next =>
          rw [horder] at hafter
          cases reply with
          | ok => exact ih hafter
          | error cause => rfl

/-- A report of a session is one of the bare session. -/
theorem notify_bare (h : s.Discreet) (n : Notification) :
    s.bare.notify n.bare = ((s.notify n).1, (s.notify n).2.bare) := by
  cases haccept : s.gate.accept n with
  | error cause => simp [notify, bare, withEvents, haccept]
  | ok gate =>
      cases hclosed : s.queue.closed with
      | true => simp [notify, EventQueue.submit, bare, withEvents, haccept, hclosed]
      | false => simp [notify, EventQueue.submit, bare, withEvents, haccept, hclosed, h.apart, Event.bare]

theorem resume_bare (h : s.Discreet) (id : ThreadId) (mode : Mode) :
    s.bare.resume id mode = ((s.resume id mode).1, (s.resume id mode).2.bare) := by
  unfold resume
  rw [isTerminated_bare, target_bare]
  split
  · rfl
  · split
    · rfl
    · split
      · exact (order_bare h _).1
      · rfl

theorem resumeAll_bare (h : s.Discreet) : s.bare.resumeAll = (s.resumeAll.1, s.resumeAll.2.bare) := by
  have hfound : s.bare.suspendedThreads = s.suspendedThreads := rfl
  unfold resumeAll
  rw [isTerminated_bare, hfound]
  split
  · rfl
  · dsimp only
    rw [orderAll_bare h]
    cases s.orderAll (s.suspendedThreads.map fun id => .resume id .clientRequest) with
    | mk reply next => cases reply <;> rfl

theorem terminate_bare (h : s.Discreet) : s.bare.terminate = (s.terminate.1, s.terminate.2.bare) := by
  unfold terminate
  rw [isTerminated_bare, terminateRequested_bare]
  split
  · rfl
  · rw [(order_bare h .terminate).1]
    cases s.order .terminate with
    | mk reply next => cases reply <;> rfl

theorem disconnect_bare (h : s.Discreet) : s.bare.disconnect = (s.disconnect.1, s.disconnect.2.bare) := by
  unfold disconnect
  rw [isTerminated_bare]
  split
  · rfl
  · exact (order_bare h .disconnect).1

/-- Bringing a change of the breakpoints to the scripts on stacks. -/
theorem forward_bare (h : s.Discreet) (breakpoints : BreakpointStore) (cs : List Command) :
    orderAll { s.bare with breakpoints } cs =
      ((orderAll { s with breakpoints } cs).1, (orderAll { s with breakpoints } cs).2.bare) := by
  have hstored : Discreet { s with breakpoints } := h.of_same rfl rfl
  exact orderAll_bare hstored cs

theorem addBreakpoint_bare (h : s.Discreet) (b : Breakpoint) :
    s.bare.addBreakpoint b = ((s.addBreakpoint b).1, (s.addBreakpoint b).2.bare) := by
  unfold addBreakpoint
  rw [breakpoints_bare]
  split
  · rfl
  · exact forward_bare h _ _

theorem removeBreakpoint_bare (h : s.Discreet) (b : Breakpoint) :
    s.bare.removeBreakpoint b = ((s.removeBreakpoint b).1, (s.removeBreakpoint b).2.bare) := by
  unfold removeBreakpoint
  rw [breakpoints_bare]
  split
  · rfl
  · exact forward_bare h _ _

theorem readVariables_bare (bindings : ScopeId → Entries) (id : ThreadId) (slot : Nat) :
    s.bare.readVariables bindings id slot =
      ((s.readVariables bindings id slot).1, (s.readVariables bindings id slot).2.bare) := by
  unfold readVariables
  rw [target_bare]
  split <;> rfl

theorem cancel_bare : s.bare.cancel = s.cancel.bare := by
  cases hcancelled : s.queue.cancelled <;>
    simp [cancel, EventQueue.cancel, bare, withEvents, hcancelled]

/-- **Every call** is answered by the bare session as by the session, and leaves it bare. -/
theorem call_bare (h : s.Discreet) (c : Call) :
    c.bare.answer s.bare = c.answer s ∧ c.bare.run s.bare = (c.run s).bare := by
  have hboth {α : Type} {r r' : α} {next next' : Session} (he : (r', next') = (r, next.bare)) :
      r' = r ∧ next' = next.bare := Prod.mk.inj he
  have hreply {r r' : Reply} {next next' : Session} (he : (r', next') = (r, next.bare)) :
      Answer.reply r' = .reply r ∧ next' = next.bare :=
    ⟨congrArg Answer.reply (hboth he).1, (hboth he).2⟩
  cases c with
  | report n => exact hreply (notify_bare h n)
  | abandonPause id => exact ⟨rfl, rfl⟩
  | control c =>
      cases c with
      | resume id mode => exact hreply (resume_bare h id mode)
      | resumeAll =>
          obtain ⟨hcount, hafter⟩ := hboth (resumeAll_bare h)
          exact ⟨congrArg (fun r => Answer.reply (Except.map (fun _ => ()) r)) hcount, hafter⟩
      | terminate => exact hreply (terminate_bare h)
      | disconnect => exact hreply (disconnect_bare h)
      | addBreakpoint b => exact hreply (addBreakpoint_bare h b)
      | removeBreakpoint b => exact hreply (removeBreakpoint_bare h b)
      | setBreakpoint script b => exact hreply (order_bare h _).1
      | readVariables bindings id slot =>
          obtain ⟨hread, hafter⟩ := hboth (readVariables_bare bindings id slot)
          exact ⟨congrArg Answer.variables hread, hafter⟩
      | cancel => exact ⟨rfl, cancel_bare⟩

/-! ### The dispatcher -/

theorem targetAfter_bare (h : s.Discreet) (e : Event) : s.bare.targetAfter e.bare = s.targetAfter e := by
  cases e with
  | command c => rfl
  | notification n => exact congrArg Prod.snd (Target.handleNotification_bare h.hides s.breakpoints n)

theorem tasksAfter_bare (h : s.Discreet) (e : Event) : s.bare.tasksAfter e.bare = s.tasksAfter e := by
  cases e with
  | command c => rfl
  | notification n =>
      have hsame := Target.handleNotification_bare h.hides s.breakpoints n
      have hend : n.bare = .engineTerminated ↔ n = .engineTerminated := n.bare_eq_engineTerminated
      change notificationTasks n.bare (s.target.handleNotification s.breakpoints n.bare).1 =
        notificationTasks n (s.target.handleNotification s.breakpoints n).1
      simp only [hsame, notificationTasks, hend]

/-- The next event of a bare session is that of the session, bare. -/
theorem take?_bare (h : s.Discreet) (htake : s.take? = some s') :
    s.bare.take? = some s'.bare ∧ s.bare.nextEvent? = s.nextEvent?.map Event.bare := by
  obtain ⟨hagenda, hexit, ⟨e, rest, hnext, hlive, hevents, rfl⟩ | ⟨hnext, hend, rfl⟩⟩ := take?_next htake
  · have hbare : s.bare.queue.events = e.bare :: rest.map Event.bare := by simp [bare, hevents]
    obtain ⟨htake', hnext'⟩ := take?_of_event (s := s.bare) hagenda hexit hlive hbare
    refine ⟨?_, by rw [hnext', hnext]; rfl⟩
    rw [htake', handle_eq, handle_eq, targetAfter_withEvents, tasksAfter_withEvents, targetAfter_withEvents,
      tasksAfter_withEvents, targetAfter_bare h, tasksAfter_bare h, Event.kind_bare]
    rfl
  · have hend' : s.bare.queue.cancelled = true ∨ s.bare.queue.events = [] ∧ s.bare.queue.closed = true :=
      hend.imp_right fun ⟨hempty, hclosed⟩ => ⟨by simp [bare, hempty], hclosed⟩
    obtain ⟨htake', hnext'⟩ := take?_of_end (s := s.bare) hagenda hexit hend'
    exact ⟨htake', by rw [hnext', hnext]; rfl⟩

/-- Where a bare session can take an event, or begin to close, so can the session. -/
theorem exists_take?_of_bare {t : Session} (htake : s.bare.take? = some t) : ∃ s', s.take? = some s' := by
  obtain ⟨hagenda, hexit, ⟨e, rest, -, hlive, hevents, -⟩ | ⟨-, hend, -⟩⟩ := take?_next htake
  · obtain ⟨e', rest', hevents', -, -⟩ := List.map_eq_cons_iff.mp hevents
    exact ⟨_, (take?_of_event (s := s) hagenda hexit hlive hevents').1⟩
  · have hend' : s.queue.cancelled = true ∨ s.queue.events = [] ∧ s.queue.closed = true :=
      hend.imp_right fun ⟨hempty, hclosed⟩ => ⟨List.map_eq_nil_iff.mp hempty, hclosed⟩
    exact ⟨_, (take?_of_end (s := s) hagenda hexit hend').1⟩

theorem effect_bare (h : s.Discreet) (task : Task) : s.bare.effect task = (s.effect task).bare := by
  cases task with
  | followUp c => exact congrArg Prod.snd (submit_bare h (.command c))
  | release | releaseAll | callback | command | forward | lastCallback | closeQueue | closeGate
  | forwardClosed | announceClosed | finish => rfl

theorem perform?_bare (h : s.Discreet) {task : Task} (hperform : s.perform? = some (task, s')) :
    s.bare.perform? = some (task, s'.bare) := by
  obtain ⟨rest, hagenda, rfl⟩ := perform?_cases hperform
  have hrest : (s.withAgenda rest).Discreet := h.of_same rfl rfl
  rw [← effect_bare hrest, perform?, worker_bare, hagenda]
  rfl

/-! ### What occurs -/

/-- What happens without what is hidden of it. -/
def Happening.bare : Happening → Happening
  | .called c answer => .called c.bare answer
  | .took e => .took (e.map Event.bare)
  | .resumedAll found reply => .resumedAll found reply
  | .did task => .did task

/-- What occurs without what is hidden of it: reports and events are bare, and whatever comes of them
stays. -/
def Occurrence.bare : Occurrence → Occurrence
  | .ran h => .ran h.bare
  | .failed task message => .failed task message

/-- **Every step** is one of bare sessions. -/
theorem Occurs.bare (h : s.Discreet) {o : Occurrence} (hstep : Occurs s o s') :
    Occurs s.bare o.bare s'.bare := by
  cases hstep with
  | fail hperform hfatal message => exact .fail (perform?_bare h hperform) hfatal message
  | run hstep =>
      refine .run ?_
      cases hstep with
      | call c hall =>
          obtain ⟨hanswer, hafter⟩ := call_bare h c
          have hall' : c.bare ≠ .control .resumeAll := by
            cases c with
            | report | abandonPause => exact nofun
            | control c => exact hall
          rw [Happening.bare, ← hanswer, ← hafter]
          exact .call s.bare c.bare hall'
      | resumeAll =>
          obtain ⟨hcount, hafter⟩ := Prod.mk.inj (resumeAll_bare h)
          rw [Happening.bare, ← hcount, ← hafter]
          exact .resumeAll s.bare
      | take htake =>
          obtain ⟨htake', hnext⟩ := take?_bare h htake
          rw [Happening.bare, ← hnext]
          exact .take htake'
      | perform hperform => exact .perform (perform?_bare h hperform)

/-- The options of a session never change. -/
theorem Proceeds.options {deed : Deed} (h : Proceeds s deed s') : s'.target.options = s.target.options := by
  cases h with
  | notify n => rw [(s.notify_frame n).1]
  | abandonPause thread => rfl
  | call c =>
      by_cases hc : c = .cancel
      · subst hc
        rfl
      · obtain ⟨cs, hcs⟩ := ControlCall.commanded s c hc
        exact hcs.target.options
  | take h =>
      obtain ⟨-, ⟨e, rest, -, rfl⟩ | ⟨-, rfl⟩⟩ := take?_cases h
      · rw [target_handle, targetAfter_withEvents]
        cases e with
        | notification n => exact Target.options_handleNotification _ _ _
        | command c => exact Target.options_handleCommand _ _
      · rfl
  | perform h =>
      obtain ⟨rest, -, rfl⟩ := perform?_cases h
      rw [target_effect]
      rfl
  | fail h =>
      obtain ⟨rest, -, rfl⟩ := perform?_cases h
      refine (Target.options_terminate _ _).trans ?_
      rw [target_effect]
      rfl

/-- Nothing that occurs changes the options, or the rule against duplicates. -/
theorem Occurs.discreet (h : s.Discreet) {o : Occurrence} (hstep : Occurs s o s') : s'.Discreet := by
  obtain ⟨deed, hproceeds⟩ := hstep.proceeds
  exact h.of_same hproceeds.options hproceeds.dedupe

/-! ### What is asked decides what occurs -/

/-- What is asked of a session in a step. -/
inductive Prompt
  /-- A call, with all that is passed in it. -/
  | call (c : Call)
  /-- That the dispatcher takes the next event. -/
  | take
  | perform
  /-- That it does the next task, in which client code fails. -/
  | fail (message : String)

/-- What is asked without what is hidden of it. -/
def Prompt.bare : Prompt → Prompt
  | .call c => .call c.bare
  | .take => .take
  | .perform => .perform
  | .fail message => .fail message

/-- What is asked when something occurs. -/
def Occurrence.prompt : Occurrence → Prompt
  | .ran (.called c _) => .call c
  | .ran (.resumedAll ..) => .call (.control .resumeAll)
  | .ran (.took _) => .take
  | .ran (.did _) => .perform
  | .failed _ message => .fail message

theorem Occurrence.prompt_bare (o : Occurrence) : o.bare.prompt = o.prompt.bare := by
  cases o with
  | failed => rfl
  | ran h => cases h <;> rfl

/-- **What is asked decides what occurs**, and where it leads. -/
theorem Occurs.unique {o o' : Occurrence} {t : Session} (hstep : Occurs s o s') (hstep' : Occurs s o' t)
    (hprompt : o'.prompt = o.prompt) : o' = o ∧ t = s' := by
  -- The prompts agree, so both are of one kind, and each kind has one outcome.
  cases hstep with
  | fail hperform hfatal message =>
      cases hstep' with
      | run hother => cases hother <;> cases hprompt
      | fail hperform' hfatal' message' =>
          obtain ⟨rfl, rfl⟩ := Prod.mk.inj (Option.some.inj (hperform.symm.trans hperform'))
          cases hprompt
          exact ⟨rfl, rfl⟩
  | run hrun =>
      cases hstep' with
      | fail => cases hrun <;> cases hprompt
      | run hother =>
          cases hrun with
          | call c hall =>
              cases hother with
              | call c' hall' =>
                  cases hprompt
                  exact ⟨rfl, rfl⟩
              | resumeAll =>
                  cases hprompt
                  exact absurd rfl hall
              | take | perform => cases hprompt
          | resumeAll =>
              cases hother with
              | call c' hall' =>
                  cases hprompt
                  exact absurd rfl hall'
              | resumeAll => exact ⟨rfl, rfl⟩
              | take | perform => cases hprompt
          | take htake =>
              cases hother with
              | take htake' =>
                  obtain rfl := Option.some.inj (htake.symm.trans htake')
                  exact ⟨rfl, rfl⟩
              | call | resumeAll | perform => cases hprompt
          | perform hperform =>
              cases hother with
              | perform hperform' =>
                  obtain ⟨rfl, rfl⟩ := Prod.mk.inj (Option.some.inj (hperform.symm.trans hperform'))
                  exact ⟨rfl, rfl⟩
              | call | resumeAll | take => cases hprompt

/-- What two sessions can do that are the same when they are bare, is the same but for what is hidden. -/
theorem Occurs.exists_bare (h : s.Discreet) (hsame : q.bare = s.bare) {o : Occurrence}
    (hstep : Occurs s o s') {p : Prompt} (hp : p.bare = o.prompt.bare) :
    ∃ o' q', Occurs q o' q' ∧ o'.prompt = p := by
  have hworker : q.worker = s.worker := (congrArg Session.worker hsame :)
  -- the first task is the same, since agendas hide nothing
  have hfirst {task : Task} {next : Session} (hperform : s.perform? = some (task, next)) :
      ∃ next', q.perform? = some (task, next') := by
    obtain ⟨rest, hagenda, -⟩ := perform?_cases hperform
    exact ⟨_, by rw [perform?, hworker, hagenda]⟩
  cases p with
  | call c =>
      by_cases hall : c = .control .resumeAll
      · subst hall
        exact ⟨_, _, .run (.resumeAll q), rfl⟩
      · exact ⟨_, _, .run (.call q c hall), rfl⟩
  | take =>
      cases hstep with
      | fail => cases hp
      | run hstep =>
          cases hstep with
          | take htake =>
              obtain ⟨q', htake'⟩ := exists_take?_of_bare (hsame ▸ (take?_bare h htake).1)
              exact ⟨_, _, .run (.take htake'), rfl⟩
          | call | resumeAll | perform => cases hp
  | perform =>
      cases hstep with
      | fail => cases hp
      | run hstep =>
          cases hstep with
          | perform hperform =>
              obtain ⟨next', hperform'⟩ := hfirst hperform
              exact ⟨_, _, .run (.perform hperform'), rfl⟩
          | call | resumeAll | take => cases hp
  | fail message =>
      cases hstep with
      | run hstep => cases hstep <;> cases hp
      | fail hperform hfatal message' =>
          obtain ⟨next', hperform'⟩ := hfirst hperform
          exact ⟨_, _, .fail hperform' hfatal message, rfl⟩

/-! ### Frames that are published -/

/-- No frame of dynamic code was ever published. -/
def Veiled (s : Session) : Prop :=
  s.target.Publishes fun frame => frame.isDynamic = false

/-- What a target that hides dynamic code presents is none. -/
theorem static_of_mem_presents {t : Target} (h : t.options.showDynamicCode = false) {n : Notification}
    {frame : Frame} (hmem : frame ∈ t.presents n) : frame.isDynamic = false := by
  have hshown {frames : List Frame} (hmem : frame ∈ t.shown frames) : frame.isDynamic = false := by
    simp only [Target.shown, h, Bool.false_eq_true, if_false] at hmem
    simpa using (List.mem_filter.mp hmem).2
  cases n with
  | scriptReady id script root =>
      simp only [Target.presents, h, Bool.false_or] at hmem
      split at hmem
      · next hstatic =>
          have hscript : script.isDynamic = false := by simpa using hstatic
          rw [List.mem_singleton.mp hmem]
          cases root <;> simp [Frame.isDynamic, Frame.capture, Target.loadedKind, hscript]
      · exact absurd hmem List.not_mem_nil
  | stackFrames id frames | suspended id frames reason => exact hshown hmem
  | resumed | engineStarted | engineTerminated => exact absurd hmem List.not_mem_nil

theorem Veiled.targetAfter (hv : s.Veiled) (h : s.Discreet) (hr : s.target.registry.Exact) (e : Event) :
    (s.targetAfter e).Publishes fun frame => frame.isDynamic = false := by
  cases e with
  | notification n =>
      exact hv.handleNotification hr s.breakpoints fun frame hmem => static_of_mem_presents h.hides hmem
  | command c => exact hv.handleCommand hr c

/-- **Whatever occurs**, no frame of dynamic code is published. -/
theorem Occurs.veiled (hv : s.Veiled) (h : s.Discreet) (hr : s.target.registry.Exact) {o : Occurrence}
    (hstep : Occurs s o s') : s'.Veiled := by
  have hcall (c : Call) : (c.run s).Veiled :=
    Target.Publishes.of_sheets hv ((s.call_frame c).1.sheets hr)
  cases hstep with
  | fail hperform hfatal message =>
      obtain ⟨rest, -, rfl⟩ := perform?_cases hperform
      refine Target.Publishes.terminate ?_ ?_ _
      · rwa [target_effect]
      · rwa [target_effect]
  | run hstep =>
      cases hstep with
      | call c hall => exact hcall c
      | resumeAll => exact hcall (.control .resumeAll)
      | perform hperform =>
          obtain ⟨rest, -, rfl⟩ := perform?_cases hperform
          rwa [Veiled, target_effect]
      | take htake =>
          obtain ⟨-, -, ⟨e, rest, -, -, -, rfl⟩ | ⟨-, -, rfl⟩⟩ := take?_next htake
          · rw [Veiled, target_handle, targetAfter_withEvents]
            exact hv.targetAfter h hr e
          · exact hv

/-! ### Runs -/

variable {settings : DebuggerSettings} {trace trace' : List Occurrence}

theorem discreet_of_execution {init : Session} (hinit : init.Discreet) (h : Execution Occurs init trace s) :
    s.Discreet :=
  h.state_invariant (P := Discreet) hinit fun hd hstep => hstep.discreet hd

theorem veiled_of_execution (hinit : (create settings).Discreet)
    (h : Execution Occurs (create settings) trace s) : s.Veiled := by
  induction h with
  | start => exact fun id frame hmem => absurd hmem List.not_mem_nil
  | next before last ih => exact last.veiled ih (discreet_of_execution hinit before) (exact_of_occurs before)

/-- **A run without what is hidden of it** is a run. -/
theorem bare_of_execution {init : Session} (hinit : init.Discreet) (h : Execution Occurs init trace s) :
    Execution Occurs init.bare (trace.map Occurrence.bare) s.bare := by
  induction h with
  | start => exact .start
  | next before last ih =>
      rw [List.map_append]
      exact ih.next (last.bare (discreet_of_execution hinit before))

/-- **Runs in which the same is asked** are the same. -/
theorem unique_of_execution {init t : Session} (h : Execution Occurs init trace s)
    (h' : Execution Occurs init trace' t)
    (hprompts : trace'.map Occurrence.prompt = trace.map Occurrence.prompt) : trace' = trace ∧ t = s := by
  induction h generalizing trace' t with
  | start =>
      obtain rfl := List.map_eq_nil_iff.mp hprompts
      exact ⟨rfl, h'.eq_of_nil⟩
  | next before last ih =>
      obtain rfl | ⟨earlier, o, rfl⟩ := List.eq_nil_or_concat trace'
      · simp at hprompts
      · rw [List.concat_eq_append] at h' hprompts ⊢
        rw [List.map_append, List.map_append] at hprompts
        obtain ⟨hearlier, hlast⟩ := List.append_inj' hprompts rfl
        obtain ⟨u, before', last'⟩ := h'.exists_of_concat
        obtain ⟨rfl, rfl⟩ := ih before' hearlier
        obtain ⟨rfl, rfl⟩ := last.unique last' (List.cons.inj hlast).1
        exact ⟨rfl, rfl⟩

/-- Two runs in which the same is asked, but for what is hidden, are the same but for what is hidden. -/
theorem same_of_execution {init t : Session} (hinit : init.Discreet) (h : Execution Occurs init trace s)
    (h' : Execution Occurs init trace' t)
    (hprompts : trace'.map (fun o => o.prompt.bare) = trace.map fun o => o.prompt.bare) :
    trace'.map Occurrence.bare = trace.map Occurrence.bare ∧ t.bare = s.bare := by
  refine unique_of_execution (bare_of_execution hinit h) (bare_of_execution hinit h') ?_
  simpa only [List.map_map, Function.comp_def, Occurrence.prompt_bare] using hprompts

/-- Whatever stands in place of what is hidden, there is such a run. -/
theorem exists_execution {init : Session} (hinit : init.Discreet) (h : Execution Occurs init trace s)
    {prompts : List Prompt} (hprompts : prompts.map Prompt.bare = trace.map fun o => o.prompt.bare) :
    ∃ trace' t, Execution Occurs init trace' t ∧ trace'.map Occurrence.prompt = prompts := by
  induction h generalizing prompts with
  | start =>
      obtain rfl := List.map_eq_nil_iff.mp hprompts
      exact ⟨[], init, .start, rfl⟩
  | next before last ih =>
      obtain rfl | ⟨earlier, p, rfl⟩ := List.eq_nil_or_concat prompts
      · simp at hprompts
      · rw [List.concat_eq_append] at hprompts ⊢
        rw [List.map_append, List.map_append] at hprompts
        obtain ⟨hearlier, hlast⟩ := List.append_inj' hprompts rfl
        obtain ⟨trace', t, hrun, hasked⟩ := ih hearlier
        rw [← hasked, List.map_map] at hearlier
        obtain ⟨-, hsame⟩ := same_of_execution hinit before hrun hearlier
        obtain ⟨o', t', hstep, hprompt⟩ :=
          last.exists_bare (discreet_of_execution hinit before) hsame (List.cons.inj hlast).1
        exact ⟨trace' ++ [o'], t', hrun.next hstep, by simp [hasked, hprompt]⟩

/-- **Hidden code does not leak.** Where dynamic code is hidden and equal events are kept apart, of every
run:

* no frame of dynamic code is published for any thread, on its stack or off it;
* every run in which the same is asked, but for what is hidden (`Prompt.bare`), is the same but for what is
  hidden in its reports (`Occurrence.bare`): every call has the same answer, the listener is told the same,
  the same commands are delivered, all in the same order, and client code fails in the same tasks. It
  leaves the same target behind, with the states of all threads, their reasons and their frames, and so
  does every part of it; only the reports that still wait may differ, in what is hidden of them;
* whatever is put in place of what is hidden, there is such a run. -/
theorem hidden_code_does_not_leak {settings : DebuggerSettings} (hhidden : settings.showDynamicCode = false)
    (hplain : settings.dedupeQueuedEvents = false) {trace : List Occurrence} {s : Session}
    (h : Execution Occurs (create settings) trace s) :
    (∀ id thread, s.target.thread? id = some thread →
      (∀ p ∈ thread.published, p.frame.isDynamic = false) ∧
        ∀ frame ∈ thread.frames, frame.isDynamic = false) ∧
    (∀ trace' t, Execution Occurs (create settings) trace' t →
      trace'.map (fun o => o.prompt.bare) = trace.map (fun o => o.prompt.bare) →
        trace'.map Occurrence.bare = trace.map Occurrence.bare ∧ t.target = s.target ∧ t.bare = s.bare) ∧
    ∀ prompts : List Prompt, prompts.map Prompt.bare = trace.map (fun o => o.prompt.bare) →
      ∃ trace' t, Execution Occurs (create settings) trace' t ∧ trace'.map Occurrence.prompt = prompts := by
  have hinit : (create settings).Discreet := ⟨hhidden, hplain⟩
  refine ⟨fun id thread hthread => ?_, fun trace' t h' hprompts => ?_,
    fun prompts hprompts => exists_execution hinit h hprompts⟩
  · have hsheets : ∀ frame ∈ thread.sheets.1, frame.isDynamic = false := by
      have hveiled := veiled_of_execution hinit h id
      rwa [Target.sheetsOf_of_thread hthread] at hveiled
    exact ⟨fun p hp => hsheets _ (List.mem_map_of_mem (Array.mem_toList_iff.mpr hp)),
      fun frame hframe => hsheets frame (thread.frames_subset_sheets hframe)⟩
  · obtain ⟨htrace, hbare⟩ := same_of_execution hinit h h' hprompts
    exact ⟨htrace, (congrArg Session.target hbare :), hbare⟩

/-- A frame of the script that thread 1 has loaded. -/
def staticFrame : Frame :=
  .capture { id := ⟨1⟩, title := "a", source := "print 1", resource := some "a" } 1 .call none

/-- A frame of code that was made up at run time. -/
def madeUpFrame (source : String) : Frame :=
  .capture { id := ⟨7⟩, title := "(dynamic code)", source, resource := none } 1 .dynamic none

/-- A session to which the running thread 1 has reported a stack, and that has handled the report. -/
def informed (frames : List Frame) : Session :=
  stepped (greeted.notify (.stackFrames ⟨1⟩ frames)).2

/-- Whatever made-up code stands around it, the listener gets to see the one frame that is not. -/
theorem hidden_code_does_not_leak_informed :
    (informed [madeUpFrame "x = 1", staticFrame, madeUpFrame "y = 2"]).target =
        (informed [staticFrame]).target ∧
    ∃ thread, (informed [staticFrame]).target.thread? ⟨1⟩ = some thread ∧ thread.frames = [staticFrame] ∧
      ∀ frame ∈ thread.frames, frame.isDynamic = false := by
  have hreport := Execution.single (Occurs.run (.call (create {}) (.report .engineStarted) nofun))
  obtain ⟨first, hstarted⟩ : ∃ trace, Execution Occurs (create {}) trace started :=
    occurs_of_stepped hreport 2
  obtain ⟨trace, hgreeted⟩ : ∃ trace, Execution Occurs (create {}) trace greeted :=
    occurs_of_stepped (hstarted.next (.run (.call _ (.report (.scriptReady ⟨1⟩ _ true)) nofun))) 10
  have hinformed (frames : List Frame) {s' : Session}
      (htake : (greeted.notify (.stackFrames ⟨1⟩ frames)).2.take? = some s') :=
    (hgreeted.next (.run (.call _ (.report (.stackFrames ⟨1⟩ frames)) nofun))).next (.run (.take htake))
  have hstatic : Execution Occurs (create {}) _ (informed [staticFrame]) := hinformed [staticFrame] rfl
  have hmixed : Execution Occurs (create {}) _
      (informed [madeUpFrame "x = 1", staticFrame, madeUpFrame "y = 2"]) := hinformed _ rfl
  obtain ⟨hveiled, hsame, -⟩ := hidden_code_does_not_leak rfl rfl hstatic
  obtain ⟨-, htarget, -⟩ := hsame _ _ hmixed (by
    simp only [List.map_append]
    rfl)
  exact ⟨htarget, _, rfl, rfl, (hveiled ⟨1⟩ _ rfl).2⟩

end Session

end Pausepoint
