import Pausepoint.Proofs.Session.Solitude

/-!
# Pausepoint.Proofs.Session.Isolation

Threads do not notice each other.

All threads of a session share one gate, one queue, one registry and, if the settings say so, one rule
against duplicates. `threads_are_isolated` is the main result: whatever run a session makes, a thread
notices the same in every run in which the same is asked on its behalf, whatever else is asked on behalf of
others; and there is one in which nothing is asked for others at all.

* `Session.Happens` — everything that can happen to a session in which client code does not fail, in the
  smallest steps: calls of both sides come between any two tasks of the dispatcher;
* `Happening.asks` — what is asked on behalf of a thread: the calls that concern it, and the moments at
  which the dispatcher goes on with what concerns it;
* `Happening.shows` — what the thread gets to see in return.

The dispatch of a command that installs a breakpoint is nothing that is asked on behalf of a thread. Which
of these commands are queued, and when, does depend on other threads: a script on any stack is told of a
breakpoint, and an equal command that waits already stands in for a second one.

Proof shape: `Session.happens_silent` and `Session.happens_meets` say what one step does, to a thread that
it is no matter of and to one that it concerns; `Session.alike_of_asks` follows by induction on two runs,
and `Session.exists_callsFor` by induction on one, which clears away what stands before the next thing that
concerns the thread. That nothing is dispatched for others where nothing was called for them is the
invariant `Session.Solitary`.
-/

namespace Pausepoint

namespace Session

/-! ### What happens -/

/-- What happens to a session. -/
inductive Happening
  /-- Either side made a call, and this came back. -/
  | called (c : Call) (answer : Answer)
  /-- The control side let all threads go on that it found suspended. -/
  | resumedAll (found : List ThreadId) (reply : Except Refusal Nat)
  /-- The dispatcher took an event, or began to close. -/
  | took (e : Option Event)
  /-- The dispatcher did a task. -/
  | did (task : Task)

/-- The threads that a call to let all threads go on finds suspended. A session that is over refuses it. -/
def found (s : Session) : List ThreadId :=
  if s.isTerminated then [] else s.suspendedThreads

/-- One step of a session in which client code does not fail: a call of an engine or of the control side, with
its answer, or a step of the dispatcher, which takes the next event or does its next task. -/
inductive Happens : Session → Happening → Session → Prop
  | call (s : Session) (c : Call) (hall : c ≠ .control .resumeAll) :
      Happens s (.called c (c.answer s)) (c.run s)
  | resumeAll (s : Session) : Happens s (.resumedAll s.found s.resumeAll.1) s.resumeAll.2
  | take {s s' : Session} (h : s.take? = some s') : Happens s (.took s.nextEvent?) s'
  | perform {s s' : Session} {task : Task} (h : s.perform? = some (task, s')) : Happens s (.did task) s'

/-- What is asked of a session on behalf of a thread. -/
inductive Ask
  | call (c : Call)
  /-- That the dispatcher takes the next event that concerns the thread, or begins to close. -/
  | take
  /-- That it does the next task that concerns the thread. -/
  | perform

/-- What a thread gets to see. -/
inductive Sight
  /-- The answer to a call. -/
  | answer (answer : Answer)
  /-- What the dispatcher took. -/
  | event (e : Option Event)
  /-- What it did. -/
  | task (task : Task)

/-- What is asked on behalf of a thread when something happens. To let all threads go on is to let the
thread go on, if it is found suspended. -/
def Happening.asks (id : ThreadId) : Happening → Option Ask
  | .called c _ => if c.concerns id then some (.call c) else none
  | .resumedAll found _ =>
      if id ∈ found then some (.call (.control (.resume id .clientRequest))) else none
  | .took e => if e.all fun e => e.concerns id then some .take else none
  | .did task => if task.concerns id then some .perform else none

/-- What the thread gets to see of it. -/
def Happening.shows (id : ThreadId) : Happening → List Sight
  | .called c answer => if c.concerns id && c.isPlain then [.answer answer] else []
  | .resumedAll found reply => if id ∈ found then [.answer (.reply (reply.map fun _ => ()))] else []
  | .took e => if e.all fun e => e.concerns id then [.event e] else []
  | .did task => if task.concerns id then [.task task] else []

/-- Nothing is called for another thread. -/
def Happening.CallsFor (id : ThreadId) : Happening → Prop
  | .called c _ => c.concerns id = true
  | .resumedAll .. => False
  | .took _ | .did _ => True

/-- Nothing is called for another thread, and nothing that is dispatched is about one. -/
def Happening.IsOwn (id : ThreadId) : Happening → Prop
  | .called c _ => c.concerns id = true
  | .resumedAll .. => False
  | .took e => ∀ e' ∈ e, e'.Spares id
  | .did task => task.Spares id

/-- What is asked on behalf of a thread in the course of a run. -/
def asked (id : ThreadId) (trace : List Happening) : List Ask :=
  trace.filterMap (Happening.asks id)

/-- What the thread gets to see in the course of it. -/
def seen (id : ThreadId) (trace : List Happening) : List Sight :=
  trace.flatMap (Happening.shows id)

variable {id : ThreadId} {s q s' q' : Session} {trace trace' : List Happening}

@[simp] theorem asked_nil : asked id [] = [] := rfl

@[simp] theorem seen_nil : seen id [] = [] := rfl

@[simp] theorem asked_append (trace later : List Happening) :
    asked id (trace ++ later) = asked id trace ++ asked id later :=
  List.filterMap_append

@[simp] theorem seen_append (trace later : List Happening) :
    seen id (trace ++ later) = seen id trace ++ seen id later :=
  List.flatMap_append

theorem asked_single_none {h : Happening} (hnone : h.asks id = none) : asked id [h] = [] := by
  simp [asked, hnone]

theorem asked_single_some {h : Happening} {a : Ask} (hsome : h.asks id = some a) : asked id [h] = [a] := by
  simp [asked, hsome]

@[simp] theorem seen_single (h : Happening) : seen id [h] = h.shows id := by
  simp [seen]

/-! ### One step -/

/-- The registry stays in order, whatever happens. -/
theorem Happens.exact {h : Happening} (hstep : Happens s h s') (hr : s.target.registry.Exact) :
    s'.target.registry.Exact := by
  cases hstep with
  | call c hall =>
      cases c with
      | report n => rwa [Call.run, (s.notify_frame n).1]
      | abandonPause thread => exact hr
      | control c => exact (s.rereads_call c).exact hr
  | resumeAll => exact (s.rereads_call .resumeAll).exact hr
  | take htake => exact (tells_take hr htake).1.exact
  | perform hperform =>
      obtain ⟨rest, -, rfl⟩ := perform?_cases hperform
      rwa [target_effect]

theorem exact_of_execution {settings : DebuggerSettings} (h : Execution Happens (create settings) trace s) :
    s.target.registry.Exact :=
  h.state_invariant (P := fun s => s.target.registry.Exact) Registry.exact_empty
    fun hr hstep => hstep.exact hr

/-- **What is not asked on behalf of a thread** is no matter of it. -/
theorem happens_silent {h : Happening} (hstep : Happens s h s') (hr : s.target.registry.Exact)
    (hnone : h.asks id = none) : Alike id s s' ∧ h.shows id = [] := by
  cases hstep with
  | call c hall =>
      have hc : c.concerns id = false := by simpa [Happening.asks] using hnone
      exact ⟨alike_call hr.indexed hc hall, by simp [Happening.shows, hc]⟩
  | resumeAll =>
      have hfound : id ∉ s.found := by simpa [Happening.asks] using hnone
      refine ⟨s.alike_resumeAll_other ?_, by simp [Happening.shows, hfound]⟩
      cases hover : s.isTerminated with
      | true => exact .inl rfl
      | false => exact .inr (by simpa [found, hover] using hfound)
  | take htake =>
      cases hnext : s.nextEvent? with
      | none => simp [Happening.asks, hnext] at hnone
      | some e =>
          have he : e.concerns id = false := by simpa [Happening.asks, hnext] using hnone
          exact ⟨alike_take hr htake hnext he, by simp [Happening.shows, he]⟩
  | perform hperform =>
      next task =>
      have htask : task.concerns id = false := by simpa [Happening.asks] using hnone
      exact ⟨alike_perform hperform htask, by simp [Happening.shows, htask]⟩

/-- A session does what is asked of it on behalf of a thread, and the thread gets to see this. -/
def Meets (id : ThreadId) (s : Session) : Ask → List Sight → Session → Prop
  | .call c, sights, s' => c.concerns id = true ∧ Alike id (c.run s) s' ∧
      sights = if c.isPlain then [.answer (c.answer s)] else []
  | .take, sights, s' => s.take? = some s' ∧ (∀ e ∈ s.nextEvent?, e.concerns id = true) ∧
      sights = [.event s.nextEvent?]
  | .perform, sights, s' => ∃ task, s.perform? = some (task, s') ∧ task.concerns id = true ∧
      sights = [.task task]

/-- **What is asked on behalf of a thread** is done. -/
theorem happens_meets {h : Happening} (hstep : Happens s h s') (hr : s.target.registry.Exact) {a : Ask}
    (hask : h.asks id = some a) : Meets id s a (h.shows id) s' := by
  cases hstep with
  | call c hall =>
      obtain ⟨hc, rfl⟩ : c.concerns id = true ∧ Ask.call c = a := by simpa [Happening.asks] using hask
      exact ⟨hc, .refl id _, by simp [Happening.shows, hc]⟩
  | resumeAll =>
      obtain ⟨hfound, rfl⟩ : id ∈ s.found ∧ Ask.call (.control (.resume id .clientRequest)) = a := by
        simpa [Happening.asks] using hask
      have hlive : s.isTerminated = false ∧ id ∈ s.suspendedThreads := by
        cases hover : s.isTerminated with
        | true => simp [found, hover] at hfound
        | false => exact ⟨rfl, by simpa [found, hover] using hfound⟩
      obtain ⟨hreply, hafter⟩ := alike_resumeAll hr hlive.1 hlive.2
      refine ⟨decide_eq_true rfl, hafter, ?_⟩
      simp only [Happening.shows, if_pos hfound, hreply]
      rfl
  | take htake =>
      have hown : (s.nextEvent?.all fun e => e.concerns id) = true ∧ Ask.take = a := by
        simpa [Happening.asks] using hask
      obtain ⟨hown, rfl⟩ := hown
      exact ⟨htake, (Option.all_eq_true _ _).mp hown, by simp only [Happening.shows, if_pos hown]⟩
  | perform hperform =>
      next task =>
      obtain ⟨htask, rfl⟩ : task.concerns id = true ∧ Ask.perform = a := by
        simpa [Happening.asks] using hask
      exact ⟨task, hperform, htask, by simp [Happening.shows, htask]⟩

/-- **Sessions that a thread cannot tell apart** do the same for it. -/
theorem Alike.meets (h : Alike id s q) (hs : s.target.registry.Exact) (hq : q.target.registry.Exact)
    {a : Ask} {sights sights' : List Sight} (hsmeets : Meets id s a sights s')
    (hqmeets : Meets id q a sights' q') : sights' = sights ∧ Alike id s' q' := by
  cases a with
  | call c =>
      obtain ⟨hc, hsafter, rfl⟩ := hsmeets
      obtain ⟨-, hqafter, rfl⟩ := hqmeets
      obtain ⟨hanswer, hafter⟩ := h.call hs.indexed hq.indexed hc
      refine ⟨?_, hsafter.symm.trans (hafter.trans hqafter)⟩
      cases hplain : c.isPlain with
      | true => rw [if_pos rfl, if_pos rfl, hanswer hplain]
      | false => rfl
  | take =>
      obtain ⟨hstake, hsown, rfl⟩ := hsmeets
      obtain ⟨hqtake, hqown, rfl⟩ := hqmeets
      obtain ⟨hnext, hafter⟩ := h.take hs hq hstake hqtake hsown hqown
      exact ⟨by rw [hnext], hafter⟩
  | perform =>
      obtain ⟨task, hsperform, htask, rfl⟩ := hsmeets
      obtain ⟨task', hqperform, htask', rfl⟩ := hqmeets
      obtain ⟨hsame, hafter⟩ := h.perform hsperform hqperform htask htask'
      exact ⟨by rw [hsame], hafter⟩

/-! ### Two runs -/

/-- A run in which nothing is asked on behalf of a thread shows it nothing. -/
theorem alike_of_silent {init : Session} (h : Execution Happens init trace s)
    (hr : init.target.registry.Exact) (hnone : asked id trace = []) :
    s.target.registry.Exact ∧ seen id trace = [] ∧ Alike id init s := by
  induction h with
  | start => exact ⟨hr, rfl, .refl id init⟩
  | next before last ih =>
      next label =>
      rw [asked_append] at hnone
      obtain ⟨hbefore, hlast⟩ := List.append_eq_nil_iff.mp hnone
      obtain ⟨hexact, hseen, hsame⟩ := ih hbefore
      have hsilent : label.asks id = none := by
        cases hask : label.asks id with
        | none => rfl
        | some a => simp [asked_single_some hask] at hlast
      obtain ⟨hafter, hshows⟩ := happens_silent last hexact hsilent
      refine ⟨last.exact hexact, ?_, hsame.trans hafter⟩
      rw [seen_append, hseen, seen_single, hshows]
      rfl

/-- **Runs in which the same is asked on behalf of a thread** show it the same, and it cannot tell where
they lead apart. -/
theorem alike_of_asks {settings : DebuggerSettings} (h : Execution Happens (create settings) trace s)
    (h' : Execution Happens (create settings) trace' q) (hasks : asked id trace' = asked id trace) :
    seen id trace' = seen id trace ∧ Alike id s q := by
  induction h generalizing trace' q with
  | start =>
      obtain ⟨-, hseen, hsame⟩ := alike_of_silent h' Registry.exact_empty hasks
      exact ⟨hseen, hsame⟩
  | next before last ih =>
      next trace s s' label =>
      have hs := exact_of_execution before
      cases hask : label.asks id with
      | none =>
          obtain ⟨hafter, hshows⟩ := happens_silent last hs hask
          rw [asked_append, asked_single_none hask, List.append_nil] at hasks
          obtain ⟨hseen, hsame⟩ := ih h' hasks
          rw [seen_append, seen_single, hshows, List.append_nil]
          exact ⟨hseen, hafter.symm.trans hsame⟩
      | some a =>
          rw [asked_append, asked_single_some hask] at hasks
          -- the second run is cut at its last step that concerns the thread
          induction h' with
          | start => simp at hasks
          | next before' last' ih' =>
              next trace' q q' label' =>
              have hq := exact_of_execution before'
              cases hask' : label'.asks id with
              | none =>
                  obtain ⟨hafter, hshows⟩ := happens_silent last' hq hask'
                  rw [asked_append, asked_single_none hask', List.append_nil] at hasks
                  obtain ⟨hseen, hsame⟩ := ih' hasks
                  rw [seen_append, seen_single, hshows, List.append_nil]
                  exact ⟨hseen, hsame.trans hafter⟩
              | some a' =>
                  rw [asked_append, asked_single_some hask'] at hasks
                  obtain ⟨hearlier, hlast⟩ := List.append_inj' hasks rfl
                  obtain rfl : a' = a := (List.cons.inj hlast).1
                  obtain ⟨hseen, hsame⟩ := ih before' hearlier
                  obtain ⟨hshows, hafter⟩ := hsame.meets hs hq (happens_meets last hs hask)
                    (happens_meets last' hq hask')
                  rw [seen_append, seen_append, seen_single, seen_single, hseen, hshows]
                  exact ⟨rfl, hafter⟩

/-! ### The run without the others -/

/-- A run in which nothing is called, and nothing is done for a thread. -/
structure Idles (id : ThreadId) (q : Session) (trace : List Happening) (q' : Session) : Prop where
  run : Execution Happens q trace q'
  calls : ∀ h ∈ trace, h.CallsFor id
  silent : asked id trace = []

namespace Idles

theorem refl (id : ThreadId) (q : Session) : Idles id q [] q :=
  ⟨.start, by simp, rfl⟩

theorem trans {r : Session} {later : List Happening} (h : Idles id q trace q') (h' : Idles id q' later r) :
    Idles id q (trace ++ later) r where
  run := h.run.append h'.run
  calls label hmem := (List.mem_append.mp hmem).elim (h.calls label) (h'.calls label)
  silent := by rw [asked_append, h.silent, h'.silent, List.append_nil]

theorem single {label : Happening} (hstep : Happens q label q') (hcalls : label.CallsFor id)
    (hsilent : label.asks id = none) : Idles id q [label] q' where
  run := .single hstep
  calls other hmem := by rwa [List.mem_singleton.mp hmem]
  silent := asked_single_none hsilent

theorem alike (h : Idles id q trace q') (hr : q.target.registry.Exact) :
    q'.target.registry.Exact ∧ Alike id q q' := by
  obtain ⟨hexact, -, hsame⟩ := alike_of_silent h.run hr h.silent
  exact ⟨hexact, hsame⟩

end Idles

/-- A task that does not concern the thread may queue something behind what waits, unless the queue is
closed. -/
theorem events_effect {task : Task} (htask : task.concerns id = false) :
    ∃ later, (q.effect task).queue.events = q.queue.events ++ later ∧
      (q.queue.closed = true → later = []) := by
  cases task with
  | followUp c =>
      obtain ⟨cs, -, hc, -⟩ := q.commanded_submit c
      exact ⟨cs.map .command, hc.events, fun hclosed => by rw [hc.closed hclosed]; rfl⟩
  | release | callback | lastCallback | command | forward => exact ⟨[], by simp [effect], fun _ => rfl⟩
  | releaseAll | closeQueue | closeGate | announceClosed | finish | forwardClosed => cases htask

/-- **Tasks that do not concern the thread** can be done. -/
theorem exists_performed {before rest : List Task} (hr : q.target.registry.Exact)
    (hagenda : q.worker.agenda = before ++ rest) (hbefore : ∀ task ∈ before, task.concerns id = false) :
    ∃ trace q' later, Idles id q trace q' ∧ q'.worker.agenda = rest ∧
      q'.queue.events = q.queue.events ++ later ∧ (q.queue.closed = true → later = []) := by
  induction before generalizing q with
  | nil => exact ⟨[], q, [], .refl id q, hagenda, by simp, fun _ => rfl⟩
  | cons task before ih =>
      have htask := hbefore task List.mem_cons_self
      have hperform : q.perform? = some (task, (q.withAgenda (before ++ rest)).effect task) := by
        unfold perform?
        rw [hagenda]
        rfl
      have hone : Idles id q [.did task] _ :=
        .single (.perform hperform) trivial (by simp [Happening.asks, htask])
      obtain ⟨hexact, hsame⟩ := hone.alike hr
      obtain ⟨later, hevents, hclosed⟩ := events_effect (q := q.withAgenda (before ++ rest)) htask
      obtain ⟨trace, q', more, hidles, hagenda', hevents', hclosed'⟩ :=
        ih hexact (by simp) fun task hmem => hbefore task (List.mem_cons_of_mem _ hmem)
      refine ⟨_, q', later ++ more, hone.trans hidles, hagenda', ?_, fun hshut => ?_⟩
      · rw [hevents', hevents, List.append_assoc]
        rfl
      · rw [hclosed hshut, hclosed' (hsame.queue.closed.trans hshut)]
        rfl

/-- **Events that do not concern the thread** can be dispatched. -/
theorem exists_dispatched {before rest : List Event} (hr : q.target.registry.Exact)
    (hagenda : q.worker.agenda = []) (hexit : q.worker.exit = none) (hlive : q.queue.cancelled = false)
    (hevents : q.queue.events = before ++ rest) (hbefore : ∀ e ∈ before, e.concerns id = false) :
    ∃ trace q' later, Idles id q trace q' ∧ q'.worker.agenda = [] ∧
      q'.queue.events = rest ++ later ∧ (q.queue.closed = true → later = []) := by
  induction before generalizing q rest with
  | nil => exact ⟨[], q, [], .refl id q, hagenda, by simp [hevents], fun _ => rfl⟩
  | cons e before ih =>
      have he := hbefore e List.mem_cons_self
      rw [List.cons_append] at hevents
      obtain ⟨htake, hnext⟩ := take?_of_event hagenda hexit hlive hevents
      have htaken : Idles id q [.took q.nextEvent?] _ :=
        .single (.take htake) trivial (by simp [Happening.asks, hnext, he])
      obtain ⟨hexact, hsame⟩ := htaken.alike hr
      have htasks : ∀ task ∈ ((q.withEvents (before ++ rest)).handle e).worker.agenda,
          task.concerns id = false := by
        have hnone := hsame.agenda
        rw [hagenda] at hnone
        simpa using List.filter_eq_nil_iff.mp hnone
      obtain ⟨trace, q₁, later, hidles, hagenda₁, hevents₁, hclosed₁⟩ :=
        exists_performed hexact (List.append_nil _).symm htasks
      obtain ⟨hexact₁, hsame₁⟩ := hidles.alike hexact
      have hboth := hsame.trans hsame₁
      rw [queue_handle, events_withEvents, List.append_assoc] at hevents₁
      obtain ⟨trace', q₂, more, hidles', hagenda₂, hevents₂, hclosed₂⟩ :=
        ih hexact₁ hagenda₁ (hboth.exit.trans hexit) (hboth.queue.cancelled.trans hlive) hevents₁
          fun e hmem => hbefore e (List.mem_cons_of_mem _ hmem)
      refine ⟨_, q₂, later ++ more, (htaken.trans hidles).trans hidles', hagenda₂, ?_,
        fun hshut => ?_⟩
      · rw [hevents₂, List.append_assoc]
      · rw [hclosed₁ (hsame.queue.closed.trans hshut), hclosed₂ (hboth.queue.closed.trans hshut)]
        rfl

/-- What is asked for after a run in which nothing is. -/
theorem Idles.followed {q₁ q₂ : Session} {label : Happening} {a : Ask} (h : Idles id q trace q₁)
    (hstep : Happens q₁ label q₂) (hcalls : label.CallsFor id) (hask : label.asks id = some a) :
    ∃ trace q', Execution Happens q trace q' ∧ (∀ h ∈ trace, h.CallsFor id) ∧ asked id trace = [a] := by
  refine ⟨trace ++ [label], q₂, h.run.next hstep, fun other hmem => ?_, ?_⟩
  · rcases List.mem_append.mp hmem with hmem | hmem
    · exact h.calls other hmem
    · rwa [List.mem_singleton.mp hmem]
  · rw [asked_append, h.silent, asked_single_some hask]
    rfl

/-- A task that one session does for a thread next, any other does that is alike to it, once it has done
the tasks before. -/
theorem Alike.exists_perform (h : Alike id s q) (hq : q.target.registry.Exact) {task : Task}
    (hperform : s.perform? = some (task, s')) (htask : task.concerns id = true) :
    ∃ trace q₁ q₂, Idles id q trace q₁ ∧ q₁.perform? = some (task, q₂) := by
  obtain ⟨rest, hagenda, -⟩ := perform?_cases hperform
  have hown := h.agenda
  rw [hagenda, ownTasks_cons_own htask] at hown
  obtain ⟨before, later, hqagenda, hbefore, -, -⟩ := List.filter_eq_cons_iff.mp hown
  obtain ⟨trace, q₁, -, hidles, hagenda₁, -, -⟩ :=
    exists_performed hq hqagenda (by simpa using hbefore)
  refine ⟨trace, q₁, (q₁.withAgenda later).effect task, hidles, ?_⟩
  unfold perform?
  rw [hagenda₁]
  rfl

/-- Where one session has nothing left to do for a thread, any other comes to have nothing left to do. -/
theorem Alike.exists_idle (h : Alike id s q) (hq : q.target.registry.Exact) (hagenda : s.worker.agenda = []) :
    ∃ trace q₁, Idles id q trace q₁ ∧ q₁.worker.agenda = [] := by
  have hnone := h.agenda
  rw [hagenda] at hnone
  obtain ⟨trace, q₁, -, hidles, hagenda₁, -, -⟩ := exists_performed hq (List.append_nil _).symm
    (by simpa using List.filter_eq_nil_iff.mp hnone)
  exact ⟨trace, q₁, hidles, hagenda₁⟩

/-- What one session takes for a thread next, any other takes that is alike to it, once it has dispatched
the events before. -/
theorem Alike.exists_take (h : Alike id s q) (hq : q.target.registry.Exact) (htake : s.take? = some s')
    (hown : ∀ e ∈ s.nextEvent?, e.concerns id = true) :
    ∃ trace q₁ q₂, Idles id q trace q₁ ∧ q₁.take? = some q₂ ∧ q₁.nextEvent? = s.nextEvent? := by
  obtain ⟨hagenda, hexit, hcases⟩ := take?_next htake
  obtain ⟨trace, q₁, hidles, hagenda₁⟩ := h.exists_idle hq hagenda
  obtain ⟨hq₁, hsame₁⟩ := hidles.alike hq
  have h₁ := h.trans hsame₁
  have hexit₁ := h₁.exit.trans hexit
  -- a queue that was cancelled hands out nothing, whatever waits in it
  by_cases hcancelled : s.queue.cancelled = true
  · obtain ⟨htake₁, hnext₁⟩ := take?_of_end hagenda₁ hexit₁ (.inl (h₁.queue.cancelled.trans hcancelled))
    have hnext : s.nextEvent? = none := nextEvent?_end (.inl hcancelled)
    exact ⟨trace, q₁, _, hidles, htake₁, hnext₁.trans hnext.symm⟩
  · have hlive₁ : q₁.queue.cancelled = false := by
      rw [h₁.queue.cancelled]
      exact Bool.eq_false_iff.mpr hcancelled
    have hevents₁ := h₁.queue.events
    obtain ⟨e, rest, hnext, -, hevents, -⟩ | ⟨hnext, hend, -⟩ := hcases
    · rw [hevents, ownEvents_cons_own (hown e hnext)] at hevents₁
      obtain ⟨before, later, hevents₁, hbefore, -, -⟩ := List.filter_eq_cons_iff.mp hevents₁
      obtain ⟨trace', q₂, more, hidles', hagenda₂, hevents₂, -⟩ :=
        exists_dispatched hq₁ hagenda₁ hexit₁ hlive₁ hevents₁ (by simpa using hbefore)
      have h₂ := (hidles'.alike hq₁).2
      obtain ⟨htake₂, hnext₂⟩ := take?_of_event hagenda₂ (h₂.exit.trans hexit₁)
        (h₂.queue.cancelled.trans hlive₁) hevents₂
      exact ⟨_, q₂, _, hidles.trans hidles', htake₂, hnext₂.trans hnext.symm⟩
    · obtain ⟨hevents, hclosed⟩ := hend.resolve_left hcancelled
      rw [hevents] at hevents₁
      have hclosed₁ := h₁.queue.closed.trans hclosed
      obtain ⟨trace', q₂, more, hidles', hagenda₂, hevents₂, hmore⟩ :=
        exists_dispatched hq₁ hagenda₁ hexit₁ hlive₁ (List.append_nil _).symm
          (by simpa using List.filter_eq_nil_iff.mp hevents₁)
      have h₂ := (hidles'.alike hq₁).2
      rw [hmore hclosed₁] at hevents₂
      obtain ⟨htake₂, hnext₂⟩ := take?_of_end hagenda₂ (h₂.exit.trans hexit₁)
        (.inr ⟨hevents₂, h₂.queue.closed.trans hclosed₁⟩)
      exact ⟨_, q₂, _, hidles.trans hidles', htake₂, hnext₂.trans hnext.symm⟩

/-- **What one session does for a thread** any other does that is alike to it. -/
theorem Alike.exists_meets (h : Alike id s q) (hq : q.target.registry.Exact) {a : Ask}
    {sights : List Sight} (hmeets : Meets id s a sights s') :
    ∃ trace q', Execution Happens q trace q' ∧ (∀ h ∈ trace, h.CallsFor id) ∧ asked id trace = [a] := by
  cases a with
  | call c =>
      have hc := hmeets.1
      have hall : c ≠ .control .resumeAll := by
        rintro rfl
        cases hc
      exact (Idles.refl id q).followed (.call q c hall) hc (by simp [Happening.asks, hc])
  | perform =>
      obtain ⟨task, hperform, htask, -⟩ := hmeets
      obtain ⟨trace, q₁, q₂, hidles, hperform₁⟩ := h.exists_perform hq hperform htask
      exact hidles.followed (.perform hperform₁) trivial (by simp [Happening.asks, htask])
  | take =>
      obtain ⟨htake, hown, -⟩ := hmeets
      obtain ⟨trace, q₁, q₂, hidles, htake₁, hnext₁⟩ := h.exists_take hq htake hown
      have hall : (q₁.nextEvent?.all fun e => e.concerns id) = true := by
        rw [hnext₁]
        exact (Option.all_eq_true _ _).mpr hown
      exact hidles.followed (.take htake₁) trivial (if_pos hall)

/-- A run in which the same is asked on behalf of the thread, and nothing is called for any other. -/
theorem exists_callsFor {settings : DebuggerSettings} (h : Execution Happens (create settings) trace s)
    (id : ThreadId) : ∃ trace' q, Execution Happens (create settings) trace' q ∧
      (∀ h ∈ trace', h.CallsFor id) ∧ asked id trace' = asked id trace := by
  induction h with
  | start => exact ⟨[], _, .start, by simp, rfl⟩
  | next before last ih =>
      next label =>
      obtain ⟨trace', q, hrun, hcalls, hasks⟩ := ih
      cases hask : label.asks id with
      | none =>
          refine ⟨trace', q, hrun, hcalls, ?_⟩
          rw [asked_append, asked_single_none hask, List.append_nil, hasks]
      | some a =>
          obtain ⟨-, hsame⟩ := alike_of_asks before hrun hasks
          obtain ⟨more, q', hmore, hcallsmore, hasksmore⟩ := hsame.exists_meets (exact_of_execution hrun)
            (happens_meets last (exact_of_execution before) hask)
          refine ⟨trace' ++ more, q', hrun.append hmore, fun other hmem => ?_, ?_⟩
          · exact (List.mem_append.mp hmem).elim (hcalls other) (hcallsmore other)
          · rw [asked_append, asked_append, asked_single_some hask, hasks, hasksmore]

/-- Where nothing is called for other threads, nothing that is dispatched is about one. -/
theorem own_of_callsFor {settings : DebuggerSettings} (h : Execution Happens (create settings) trace s)
    (hcalls : ∀ h ∈ trace, h.CallsFor id) : s.Solitary id ∧ ∀ h ∈ trace, h.IsOwn id := by
  induction h with
  | start => exact ⟨solitary_create id settings, by simp⟩
  | next before last ih =>
      next trace s s' label =>
      obtain ⟨halone, hown⟩ := ih fun h hmem => hcalls h (List.mem_append_left _ hmem)
      have hlabel : label.CallsFor id := hcalls label (by simp)
      have hlast : s'.Solitary id ∧ label.IsOwn id := by
        cases last with
        | call c hall => exact ⟨halone.call hlabel, hlabel⟩
        | resumeAll => exact hlabel.elim
        | take htake => exact halone.take htake
        | perform hperform => exact halone.perform hperform
      refine ⟨hlast.1, fun h hmem => ?_⟩
      obtain hmem | hmem := List.mem_append.mp hmem
      · exact hown h hmem
      · rw [List.mem_singleton.mp hmem]
        exact hlast.2

/-! ### Any two moments -/

/-- What can be asked about a thread is the same in two sessions: what it is doing, why it last stopped,
its stack, and every frame it published with what was read of it. -/
structure LooksAlike (id : ThreadId) (s q : Session) : Prop where
  state : q.threadState id = s.threadState id
  reason : q.suspendReason id = s.suspendReason id
  stack : q.stackSlots id = s.stackSlots id
  thread : q.target.thread? id = s.target.thread? id

theorem Alike.looksAlike (h : Alike id s q) : LooksAlike id s q where
  state := by rw [threadState, threadState, h.target.thread]
  reason := by rw [suspendReason, suspendReason, h.target.thread]
  stack := by rw [stackSlots, stackSlots, h.target.thread]
  thread := h.target.thread

/-- A run passes through every stage of what is asked in it on behalf of a thread. -/
theorem exists_moment {init : Session} (h : Execution Happens init trace s) {first : List Ask}
    (hfirst : first <+: asked id trace) : ∃ before after q, trace = before ++ after ∧
      Execution Happens init before q ∧ asked id before = first := by
  induction h with
  | start => exact ⟨[], [], init, rfl, .start, (List.prefix_nil.mp hfirst).symm⟩
  | next before last ih =>
      next trace s s' label =>
      have hearlier (hearly : first <+: asked id trace) : ∃ before after q,
          trace ++ [label] = before ++ after ∧ Execution Happens init before q ∧
            asked id before = first := by
        obtain ⟨earlier, after, q, rfl, hrun, hasked⟩ := ih hearly
        exact ⟨earlier, after ++ [label], q, List.append_assoc .., hrun, hasked⟩
      rw [asked_append] at hfirst
      cases hask : label.asks id with
      | none =>
          rw [asked_single_none hask, List.append_nil] at hfirst
          exact hearlier hfirst
      | some a =>
          rw [asked_single_some hask] at hfirst
          obtain hwhole | hearly := List.prefix_concat_iff.mp hfirst
          · refine ⟨trace ++ [label], [], s', (List.append_nil _).symm, before.next last, ?_⟩
            rw [asked_append, asked_single_some hask, hwhole]
          · exact hearlier hearly

/-- **Threads are isolated.** For every run and every thread:

* there is a run in which the same is asked on behalf of the thread, and in which nothing is called for
  any other, nor is anything dispatched that is about another;
* in every run in which the same is asked on behalf of the thread it gets to see the same: what its calls
  give back, what the listener is told about it, and which decisions on it are delivered. It looks the same
  at the end, and at every moment before: to each moment of one run belongs one of the other, up to which
  the same was asked. -/
theorem threads_are_isolated {settings : DebuggerSettings} {trace : List Happening} {s : Session}
    (h : Execution Happens (create settings) trace s) (id : ThreadId) :
    (∃ trace' q, Execution Happens (create settings) trace' q ∧
      (∀ happening ∈ trace', happening.IsOwn id) ∧ asked id trace' = asked id trace) ∧
    ∀ trace' q, Execution Happens (create settings) trace' q → asked id trace' = asked id trace →
      seen id trace' = seen id trace ∧ LooksAlike id s q ∧
      ∀ before after s₁, trace = before ++ after → Execution Happens (create settings) before s₁ →
        ∃ before' after' q₁, trace' = before' ++ after' ∧ Execution Happens (create settings) before' q₁ ∧
          asked id before' = asked id before ∧ seen id before' = seen id before ∧ LooksAlike id s₁ q₁ := by
  constructor
  · obtain ⟨trace', q, hrun, hcalls, hasks⟩ := exists_callsFor h id
    exact ⟨trace', q, hrun, (own_of_callsFor hrun hcalls).2, hasks⟩
  · intro trace' q h' hasks
    obtain ⟨hseen, hsame⟩ := alike_of_asks h h' hasks
    refine ⟨hseen, hsame.looksAlike, fun before after s₁ htrace hbefore => ?_⟩
    have hfirst : asked id before <+: asked id trace' := by
      rw [hasks, htrace, asked_append]
      exact List.prefix_append _ _
    obtain ⟨before', after', q₁, htrace', hbefore', hasks'⟩ := exists_moment h' hfirst
    obtain ⟨hseen', hsame'⟩ := alike_of_asks hbefore hbefore' hasks'
    exact ⟨before', after', q₁, htrace', hbefore', hasks', hseen', hsame'.looksAlike⟩

/-- The announcement of the same script by another thread. -/
def secondLoad : Notification :=
  .scriptReady ⟨2⟩ { id := ⟨1⟩, title := "a", source := "x = 1", resource := some "a" } true

/-- Two threads have announced a script, and both announcements were taken in turn. -/
def crowded : Session :=
  Nat.repeat stepped 6 ((started.notify secondLoad).2.notify firstLoad).2

theorem execution_crowded : ∃ trace, Execution Happens (create {}) trace crowded := by
  have hreport := Execution.single (Happens.call (create {}) (.report .engineStarted) (by simp))
  have hstarted : Execution Happens (create {}) _ started := (hreport.next (.take rfl)).next (.perform rfl)
  have hsecond := hstarted.next (.call started (.report secondLoad) (by simp))
  have hfirst := hsecond.next (.call _ (.report firstLoad) (by simp))
  -- three callbacks and the decision that follows them
  have htold := (((hfirst.next (.take rfl)).next (.perform rfl)).next (.perform rfl)).next (.perform rfl)
  exact ⟨_, (htold.next (.perform rfl)).next (.take rfl)⟩

/-- There both are suspended, and the first one is so too where the second was never heard of. -/
theorem threads_are_isolated_crowded : ∃ trace, Execution Happens (create {}) trace crowded ∧
    crowded.threadState ⟨2⟩ = .ok .suspended ∧
    ∃ trace' q, Execution Happens (create {}) trace' q ∧
      (∀ happening ∈ trace', happening.IsOwn ⟨1⟩) ∧ seen ⟨1⟩ trace' = seen ⟨1⟩ trace ∧
      q.threadState ⟨1⟩ = .ok .suspended := by
  obtain ⟨trace, hrun⟩ := execution_crowded
  obtain ⟨⟨trace', q, hrun', hown, hasks⟩, hsame⟩ := threads_are_isolated hrun ⟨1⟩
  obtain ⟨hseen, hlooks, -⟩ := hsame trace' q hrun' hasks
  exact ⟨trace, hrun, rfl, trace', q, hrun', hown, hseen, hlooks.state.trans rfl⟩

end Session

end Pausepoint
