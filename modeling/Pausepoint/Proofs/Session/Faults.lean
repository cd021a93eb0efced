import Pausepoint.Proofs.Session.Proceedings

/-!
# Pausepoint.Proofs.Session.Faults

What becomes of a session when client code fails.

A callback and the handling of a command are client code. `failure_is_surfaced` is the main result: if
client code fails anywhere in a task of the dispatcher, then the dispatcher ends with the fault and the
target is over. How the fault is told depends on when it happens:

* as long as the target is not over, the fault becomes that of the target, and the farewell to the
  listener, the only one of the whole session, carries it;
* once the event at hand has ended the target, nothing tells of the fault but the exit of the
  dispatcher: the target has no fault, and no farewell carries one. `fault_is_lost` is such a run, in
  which the listener is told of no end at all.

`Unharmed` is the invariant of sessions in which nobody has failed, `Harmed` that of the others.
-/

namespace Pausepoint

/-- What the farewells among some callbacks say. -/
def farewells (cs : List Callback) : List (Option Fault) :=
  cs.filterMap fun
    | .sessionTerminated fault => some fault
    | _ => none

@[simp] theorem farewells_append (cs ds : List Callback) :
    farewells (cs ++ ds) = farewells cs ++ farewells ds :=
  List.filterMap_append

@[simp] theorem farewells_nil : farewells [] = [] := rfl

/-! ### Events and the end of the target -/

namespace Target

/-- **The end of a target** is told by a farewell, unless it was told before. -/
theorem farewells_terminate (t : Target) (fault : Option Fault) :
    farewells (t.terminate fault).1 = (if t.state = .terminated then [] else [fault]) ∧
      (t.terminate fault).2.fault = if t.state = .terminated then t.fault else fault := by
  unfold terminate
  by_cases h : t.state = .terminated
  · rw [if_pos (by simpa [isTerminated] using h), if_pos h, if_pos h]
    exact ⟨rfl, rfl⟩
  · rw [if_neg (by simpa [isTerminated] using h), if_neg h, if_neg h]
    refine ⟨?_, rfl⟩
    have hnone : farewells (t.registry.terminateAll.1.map fun id => .threadStateChanged id .terminated) =
        [] := by
      rw [farewells, List.filterMap_map]
      exact List.filterMap_eq_nil_iff.mpr fun _ _ => rfl
    simp only [farewells_append, hnone]
    rfl

/-- From one target without a fault to another, some callbacks hold the farewell if there is one. -/
structure Parts (t t' : Target) (cs : List Callback) : Prop where
  fault : t'.fault = none
  farewells : farewells cs =
    if t'.state = .terminated ∧ t.state ≠ .terminated then [none] else []

/-- A handler that changes the threads at most. -/
theorem Parts.of_frame {t t' : Target} {cs : List Callback} (hf : t.fault = none)
    (hframe : ∃ registry, t' = { t with registry }) (hcs : ∀ fault, .sessionTerminated fault ∉ cs) :
    t.Parts t' cs := by
  obtain ⟨_, rfl⟩ := hframe
  refine ⟨hf, ?_⟩
  rw [if_neg fun h => h.2 h.1]
  refine List.filterMap_eq_nil_iff.mpr fun c hc => ?_
  cases c with
  | sessionTerminated fault => exact absurd hc (hcs fault)
  | sessionCreated | threadCreated | threadStateChanged | stackFramesChanged => rfl

theorem parts_terminate {t : Target} (hf : t.fault = none) :
    t.Parts (t.terminate none).2 (t.terminate none).1 := by
  obtain ⟨hfarewells, hfault⟩ := t.farewells_terminate none
  refine ⟨?_, ?_⟩
  · rw [hfault, hf, ite_self]
  · rw [hfarewells, t.state_terminate none]
    by_cases h : t.state = .terminated <;> simp [h]

/-- **A report** parts with the listener if it ends the target. -/
theorem parts_handleNotification {t : Target} (hf : t.fault = none) (store : BreakpointStore)
    (n : Notification) :
    t.Parts (t.handleNotification store n).2 (t.handleNotification store n).1.callbacks := by
  unfold handleNotification
  split
  · exact .of_frame hf ⟨_, rfl⟩ nofun
  · next hstate =>
      refine ⟨hf, ?_⟩
      simp [Pausepoint.farewells]
  · exact .of_frame hf ⟨_, rfl⟩ nofun
  · exact parts_terminate hf
  · exact .of_frame hf ⟨_, rfl⟩ nofun
  · refine .of_frame hf (t.scriptReady_frame ..) fun fault => ?_
    unfold scriptReady
    dsimp only
    split
    · split
      · split <;> (dsimp only; split <;> simp)
      · dsimp only
        split <;> simp
    · dsimp only
      split <;> simp
  · refine .of_frame hf (t.stackFrames_frame ..) fun fault => ?_
    unfold stackFrames
    split <;> simp
  · refine .of_frame hf (t.suspended_frame ..) fun fault => ?_
    unfold suspended
    split
    · dsimp only
      split <;> simp
    · simp
  · refine .of_frame hf (t.resumed_frame ..) fun fault => ?_
    unfold resumed
    split
    · simp
    · split
      · simp
      · dsimp only
        split <;> simp

/-- **A command** does so, too. -/
theorem parts_handleCommand {t : Target} (hf : t.fault = none) (c : Command) :
    t.Parts (t.handleCommand c).2 (t.handleCommand c).1.callbacks := by
  unfold handleCommand
  split
  · exact .of_frame hf ⟨_, rfl⟩ nofun
  · cases c with
    | resume id mode =>
        dsimp only
        split
        · exact .of_frame hf ⟨_, rfl⟩ (by simp)
        · exact .of_frame hf ⟨_, rfl⟩ nofun
    | disconnect => exact parts_terminate hf
    | terminate | setBreakpoint => exact .of_frame hf ⟨_, rfl⟩ nofun

end Target

namespace Session

/-! ### Before a failure -/

/-- **The invariant before**: there is no fault, and the farewell is told, or about to be told, once the
target is over. -/
structure Unharmed (trace : List Deed) (s : Session) : Prop where
  fault : s.target.fault = none
  farewell : farewells (heard trace ++ toldBy s.worker.agenda) =
    if s.target.state = .terminated then [none] else []

theorem unharmed_create (settings : DebuggerSettings) : Unharmed [] (create settings) :=
  ⟨rfl, rfl⟩

namespace Unharmed

variable {trace : List Deed} {s s' : Session}

theorem outside (h : Unharmed trace s) (hs : Proceeds s .outside s') :
    Unharmed (trace ++ [.outside]) s' := by
  obtain ⟨ht, hw⟩ := hs.outside
  refine ⟨ht.fault.trans h.fault, ?_⟩
  rw [heard_snoc, hw, ht.state, ← h.farewell]
  simp [Deed.told?]

theorem take (h : Unharmed trace s) (hs : s.take? = some s') : Unharmed (trace ++ [.take]) s' := by
  obtain ⟨hidle, hcases⟩ := take?_cases hs
  have hfarewell := h.farewell
  rw [hidle, toldBy_nil, List.append_nil] at hfarewell
  have hstep {target : Target} {cs : List Callback} (hparts : s.target.Parts target cs)
      (hrest : s.target.state = .terminated → target = s.target) :
      farewells (heard (trace ++ [.take]) ++ cs) =
        if target.state = .terminated then [none] else [] := by
    rw [heard_snoc, farewells_append, farewells_append, hfarewell, hparts.farewells]
    by_cases hbefore : s.target.state = .terminated
    · simp [hrest hbefore, hbefore, Deed.told?]
    · by_cases hafter : target.state = .terminated <;> simp [hbefore, hafter, Deed.told?]
  rcases hcases with ⟨e, rest, -, rfl⟩ | ⟨-, rfl⟩
  · have hsame := fun hover => targetAfter_of_terminated (s := s) hover e
    refine ⟨?_, ?_⟩
    · rw [target_handle, targetAfter_withEvents]
      cases e with
      | notification n => exact (Target.parts_handleNotification h.fault s.breakpoints n).fault
      | command c => exact (Target.parts_handleCommand h.fault c).fault
    · rw [target_handle, agenda_handle, targetAfter_withEvents, tasksAfter_withEvents]
      cases e with
      | notification n =>
          rw [tasksAfter, toldBy_notificationTasks]
          exact hstep (Target.parts_handleNotification h.fault s.breakpoints n) hsame
      | command c =>
          rw [tasksAfter, toldBy_commandTasks]
          exact hstep (Target.parts_handleCommand h.fault c) hsame
  · exact ⟨h.fault, hstep (.of_frame h.fault ⟨_, rfl⟩ fun _ => List.not_mem_nil) fun _ => rfl⟩

/-- A task that is done is heard, if it tells something. -/
theorem perform (h : Unharmed trace s) {task : Task} (hs : s.perform? = some (task, s')) {deed : Deed}
    (hdeed : deed.told? = task.told?) : Unharmed (trace ++ [deed]) s' := by
  obtain ⟨rest, hagenda, rfl⟩ := perform?_cases hs
  have hfarewell := h.farewell
  rw [hagenda, toldBy_cons, ← List.append_assoc, ← hdeed, ← heard_snoc] at hfarewell
  refine ⟨?_, ?_⟩
  · rw [target_effect]
    exact h.fault
  · rw [target_effect, agenda_effect, agenda_withAgenda]
    exact hfarewell

end Unharmed

/-! ### After a failure -/

/-- What a dispatcher does after a failure. -/
def lastTasks (callbacks : List Callback) (fault : Fault) : List Task :=
  .releaseAll :: callbacks.map .lastCallback ++ closing (.faulted fault)

/-- No client code can fail in it. -/
theorem isFatal_of_mem_lastTasks {callbacks : List Callback} {fault : Fault} {task : Task}
    (h : task ∈ lastTasks callbacks fault) : isFatal task = false := by
  simp only [lastTasks, closing, List.cons_append, List.mem_cons, List.mem_append, List.mem_map,
    List.not_mem_nil, or_false] at h
  rcases h with rfl | ⟨c, -, rfl⟩ | rfl | rfl | rfl | rfl | rfl <;> rfl

/-- **The invariant after**: the target stays as the failure has left it, and the dispatcher comes to
its end with the fault. -/
structure Harmed (target : Target) (callbacks : List Callback) (fault : Fault) (later : List Deed)
    (s : Session) : Prop where
  state : s.target.state = target.state
  cause : s.target.fault = target.fault
  agenda : s.worker.agenda <:+ lastTasks callbacks fault
  told : heard later ++ toldBy s.worker.agenda = callbacks
  exit : s.worker.agenda = [] → s.worker.exit = some (.faulted fault)

/-- The fault of client code that fails. -/
def faultOf (s : Session) (message : String) : Fault :=
  { event := s.worker.event, message }

theorem harmed_fail (s : Session) (message : String) :
    Harmed (s.target.terminate (some (s.faultOf message))).2
      (s.target.terminate (some (s.faultOf message))).1 (s.faultOf message) [] (s.fail message) where
  state := rfl
  cause := rfl
  agenda := List.suffix_refl _
  told := by
    unfold fail
    simp [heard, toldBy_cons, Task.told?, faultOf]
  exit h := by cases h

theorem exit_effect {s : Session} {task : Task} {exit : Exit}
    (h : s.worker.exit = some exit ∨ task = .finish exit) (hother : ∀ e, task = .finish e → e = exit) :
    (s.effect task).worker.exit = some exit := by
  cases task with
  | finish e => rw [hother e rfl]; rfl
  | followUp c =>
      obtain ⟨cs, -, hc, -⟩ := s.commanded_submit c
      exact (congrArg Worker.exit hc.worker).trans (h.resolve_right nofun)
  | release | releaseAll | callback | command | forward | lastCallback | closeQueue | closeGate
  | forwardClosed | announceClosed => exact h.resolve_right nofun

namespace Harmed

variable {target : Target} {callbacks : List Callback} {fault : Fault} {later : List Deed}
  {s s' : Session}

/-- A dispatcher that is done has left by its last task. -/
theorem perform (h : Harmed target callbacks fault later s) {task : Task}
    (hs : s.perform? = some (task, s')) : Harmed target callbacks fault (later ++ [.task task]) s' := by
  obtain ⟨rest, hagenda, rfl⟩ := perform?_cases hs
  have hsuffix := h.agenda
  have htold := h.told
  rw [hagenda] at hsuffix htold
  refine ⟨?_, ?_, ?_, ?_, fun hdone => ?_⟩
  · rw [target_effect]
    exact h.state
  · rw [target_effect]
    exact h.cause
  · rw [agenda_effect, agenda_withAgenda]
    exact (List.suffix_cons task rest).trans hsuffix
  · rw [heard_snoc, agenda_effect, agenda_withAgenda, List.append_assoc]
    rw [toldBy_cons] at htold
    exact htold
  · rw [agenda_effect, agenda_withAgenda] at hdone
    subst hdone
    obtain ⟨before, hbefore⟩ := hsuffix
    have hlast : lastTasks callbacks fault =
        (.releaseAll :: callbacks.map .lastCallback ++
          [.closeQueue, .closeGate, .forwardClosed, .announceClosed]) ++ [.finish (.faulted fault)] := by
      simp [lastTasks, closing]
    rw [hlast] at hbefore
    obtain rfl : task = .finish (.faulted fault) :=
      List.singleton_inj.mp (List.append_inj_right' hbefore rfl)
    exact exit_effect (.inr rfl) fun e he => by cases he; rfl

/-- **Every step keeps the invariant**: no further event is taken, and nobody fails again. -/
theorem step (h : Harmed target callbacks fault later s) {deed : Deed} (hs : Proceeds s deed s') :
    Harmed target callbacks fault (later ++ [deed]) s' := by
  have houtside (hs : Proceeds s .outside s') :
      Harmed target callbacks fault (later ++ [.outside]) s' := by
    obtain ⟨ht, hw⟩ := hs.outside
    refine ⟨ht.state.trans h.state, ht.fault.trans h.cause, hw ▸ h.agenda, ?_, hw ▸ h.exit⟩
    rw [heard_snoc, hw, ← h.told]
    simp [Deed.told?]
  cases hs with
  | notify n => exact houtside (.notify s n)
  | abandonPause thread => exact houtside (.abandonPause s thread)
  | call c => exact houtside (.call s c)
  | take htake =>
      have hexit := h.exit (take?_cases htake).1
      simp [take?, isIdle, hexit] at htake
  | perform hs => exact h.perform hs
  | fail hs hfatal message =>
      obtain ⟨rest, hagenda, -⟩ := perform?_cases hs
      rw [isFatal_of_mem_lastTasks (h.agenda.mem (by rw [hagenda]; exact List.mem_cons_self))] at hfatal
      cases hfatal

/-- The dispatcher ends with the fault. -/
theorem exit_finishAgenda (h : Harmed target callbacks fault later s) :
    s.finishAgenda.2.exit? = some (.faulted fault) := by
  have hall := finishAgenda_induction (P := fun s => ∃ later, Harmed target callbacks fault later s)
    (fun ⟨_, hs⟩ hstep => ⟨_, hs.perform hstep⟩) ⟨later, h⟩
  obtain ⟨_, hlast⟩ := hall
  refine hlast.exit ?_
  rw [finishAgenda_eq, agenda_withAgenda]

end Harmed

/-! ### The main result -/

/-- In every run nobody has failed so far, or the dispatcher is on its way to the end. -/
theorem unharmed_or_harmed {settings : DebuggerSettings} {trace : List Deed} {s : Session}
    (h : Execution Proceeds (create settings) trace s) :
    Unharmed trace s ∨ ∃ target callbacks fault later, Harmed target callbacks fault later s := by
  refine h.invariant (P := fun trace s => Unharmed trace s ∨
    ∃ target callbacks fault later, Harmed target callbacks fault later s)
    (.inl (unharmed_create settings)) ?_
  rintro trace s deed s' - (hsound | ⟨target, callbacks, fault, later, hharmed⟩) hstep
  · cases hstep with
    | notify n => exact .inl (hsound.outside (.notify s n))
    | abandonPause thread => exact .inl (hsound.outside (.abandonPause s thread))
    | call c => exact .inl (hsound.outside (.call s c))
    | take hs => exact .inl (hsound.take hs)
    | perform hs => exact .inl (hsound.perform hs rfl)
    | @fail s' _ _ _ message => exact .inr ⟨_, _, _, _, s'.harmed_fail message⟩
  · exact .inr ⟨target, callbacks, fault, _, hharmed.step hstep⟩

/-- Nobody has failed before a task in which client code may fail. -/
theorem unharmed_of_fatal {settings : DebuggerSettings} {trace : List Deed} {s s' : Session} {task : Task}
    (h : Execution Proceeds (create settings) trace s) (hs : s.perform? = some (task, s'))
    (hfatal : isFatal task = true) : Unharmed trace s := by
  rcases unharmed_or_harmed h with hsound | ⟨target, callbacks, fault, later, hharmed⟩
  · exact hsound
  · obtain ⟨rest, hagenda, -⟩ := perform?_cases hs
    have hmem := hharmed.agenda.mem (by rw [hagenda]; exact List.mem_cons_self)
    rw [isFatal_of_mem_lastTasks hmem] at hfatal
    cases hfatal

theorem harmed_of_execution {s t : Session} {message : String} {later : List Deed}
    (h : Execution Proceeds (s.fail message) later t) :
    Harmed (s.target.terminate (some (s.faultOf message))).2
      (s.target.terminate (some (s.faultOf message))).1 (s.faultOf message) later t :=
  h.invariant (P := fun later t => Harmed (s.target.terminate (some (s.faultOf message))).2
      (s.target.terminate (some (s.faultOf message))).1 (s.faultOf message) later t)
    (s.harmed_fail message) fun _ ih hstep => ih.step hstep

/-- **A failure of client code is surfaced.** Client code fails in a task of the dispatcher, after any
run and before any other. Then the dispatcher ends with the fault, whatever the others still do, and the
target is over. If it was not over at the failure, then the fault is its fault, and there is exactly one
farewell in the whole session, which carries it. If it was over, then it has no fault, and no farewell
carries one. -/
theorem failure_is_surfaced {settings : DebuggerSettings} {trace later : List Deed}
    {s s' t : Session} {task : Task} (h : Execution Proceeds (create settings) trace s)
    (hs : s.perform? = some (task, s')) (hfatal : isFatal task = true) (message : String)
    (hlater : Execution Proceeds (s'.fail message) later t) :
    t.finishAgenda.2.exit? = some (.faulted (s.faultOf message)) ∧ t.state = .terminated ∧
    (s.state ≠ .terminated → t.target.fault = some (s.faultOf message) ∧
      farewells (heard (trace ++ .failure task message :: later) ++ toldBy t.worker.agenda) =
        [some (s.faultOf message)]) ∧
    (s.state = .terminated → t.target.fault = none ∧
      ∀ fault ∈ farewells (heard (trace ++ .failure task message :: later)), fault = none) := by
  obtain ⟨rest, hagenda, hafter⟩ := perform?_cases hs
  have hsound := unharmed_of_fatal h hs hfatal
  have hdone := hsound.perform hs (show (Deed.failure task message).told? = _ from rfl)
  have htarget : s'.target = s.target := by
    rw [hafter, target_effect]
    rfl
  have hfault : s'.faultOf message = s.faultOf message := by
    have hevent : s'.worker.event = s.worker.event := by
      rw [hafter]
      cases task with
      | callback | command => rfl
      | release | releaseAll | followUp | forward | lastCallback | closeQueue | closeGate
      | forwardClosed | announceClosed | finish => cases hfatal
    rw [faultOf, faultOf, hevent]
  -- From the failure on the fault is fixed, whatever happens later.
  have hharmed := harmed_of_execution hlater
  obtain ⟨hfarewells, hended⟩ := s'.target.farewells_terminate (some (s'.faultOf message))
  rw [htarget, hfault] at hharmed hfarewells hended
  -- The farewells are those before the failure, and those of the last tasks.
  have hsplit : trace ++ .failure task message :: later =
      (trace ++ [.failure task message]) ++ later := by simp
  have hbefore := hdone.farewell
  rw [htarget, farewells_append] at hbefore
  refine ⟨hharmed.exit_finishAgenda, hharmed.state.trans (Target.state_terminate _ _),
    fun (hlive : s.target.state ≠ .terminated) => ?_,
    fun (hover : s.target.state = .terminated) => ?_⟩
  · rw [hharmed.cause, hended, if_neg hlive]
    refine ⟨rfl, ?_⟩
    rw [if_neg hlive, List.append_eq_nil_iff] at hbefore
    rw [hsplit, heard_append, List.append_assoc, hharmed.told, farewells_append, hbefore.1,
      hfarewells, if_neg hlive, List.nil_append]
  · rw [if_pos hover] at hbefore hfarewells
    rw [hharmed.cause, hended, if_pos hover]
    refine ⟨hsound.fault, fun fault hmem => ?_⟩
    rw [hsplit, heard_append, farewells_append] at hmem
    rcases List.mem_append.mp hmem with hmem | hmem
    · have hfirst := List.mem_append_left (farewells (toldBy s'.worker.agenda)) hmem
      rw [hbefore] at hfirst
      exact List.mem_singleton.mp hfirst
    · rw [← hharmed.told, farewells_append, List.append_eq_nil_iff] at hfarewells
      rw [hfarewells.1] at hmem
      cases hmem

/-- A session that is about to tell of its start. -/
def arriving : Session :=
  stepped ((create {}).notify .engineStarted).2

/-- The listener fails when it is told of the start, and the last it is told is why. -/
theorem failure_is_surfaced_on_start : ∃ trace later t,
    Execution Proceeds (create {}) trace arriving ∧
    Execution Proceeds ((stepped arriving).fail "boom") later t ∧
    t.exit? = some (.faulted { event := "engineStarted", message := "boom" }) ∧
    farewells (heard (trace ++ .failure (.callback .sessionCreated) "boom" :: later)) =
      [some { event := "engineStarted", message := "boom" }] := by
  obtain ⟨trace, h, -⟩ := execution_of_stepped (.next .start (.notify (create {}) .engineStarted)) 1
  obtain ⟨later, hlater, -⟩ :=
    execution_of_stepped (.start : Execution Proceeds ((stepped arriving).fail "boom") [] _) 8
  have hs : arriving.perform? = some (.callback .sessionCreated, stepped arriving) := rfl
  obtain ⟨-, -, hlive, -⟩ := failure_is_surfaced h hs rfl "boom" hlater
  obtain ⟨-, hfarewells⟩ := hlive (by decide +kernel)
  refine ⟨_, _, _, h, hlater, by decide +kernel, ?_⟩
  rw [List.nil_append, farewells_append] at hfarewells
  have hdone : farewells (toldBy (Nat.repeat stepped 8 ((stepped arriving).fail "boom")).worker.agenda) =
      [] := by decide +kernel
  rwa [hdone, List.append_nil] at hfarewells

/-- A session whose end is about to be told. -/
def parting : Session :=
  stepped (greeted.notify .engineTerminated).2

/-- **A fault that is lost**: the listener fails at the first callback of the end of the engine, and
there is no farewell at all, nor a fault to ask for. -/
theorem fault_is_lost : ∃ trace later t,
    Execution Proceeds (create {}) trace parting ∧
    parting.perform? = some (.callback (.threadStateChanged ⟨1⟩ .terminated), stepped parting) ∧
    Execution Proceeds ((stepped parting).fail "boom") later t ∧ t.worker.agenda = [] ∧
    t.exit? = some (.faulted (parting.faultOf "boom")) ∧ t.target.fault = none ∧
    farewells (heard (trace ++
      .failure (.callback (.threadStateChanged ⟨1⟩ .terminated)) "boom" :: later)) = [] := by
  obtain ⟨trace, h⟩ : ∃ trace, Execution Proceeds (create {}) trace parting := by
    obtain ⟨before, hgreeted, -⟩ := execution_greeted
    obtain ⟨last, h, -⟩ := execution_of_stepped (hgreeted.next (.notify _ .engineTerminated)) 1
    exact ⟨_, h⟩
  obtain ⟨later, hlater, -⟩ :=
    execution_of_stepped (.start : Execution Proceeds ((stepped parting).fail "boom") [] _) 8
  have hs : parting.perform? =
      some (.callback (.threadStateChanged ⟨1⟩ .terminated), stepped parting) := rfl
  refine ⟨trace, later, _, h, hs, hlater, by decide +kernel, by decide +kernel, by decide +kernel, ?_⟩
  -- The only farewell was still to be told, and the failure brings no other.
  have hfarewell := (unharmed_of_fatal h hs rfl).farewell
  have hdue : farewells (toldBy parting.worker.agenda) = [none] := by decide +kernel
  rw [farewells_append, hdue, if_pos (by decide +kernel)] at hfarewell
  have htold := (harmed_of_execution hlater).told
  have hnone : ((stepped parting).target.terminate (some ((stepped parting).faultOf "boom"))).1 = [] := by
    decide +kernel
  rw [hnone, List.nil_append, List.append_eq_nil_iff] at htold
  have hsplit : trace ++ .failure (.callback (.threadStateChanged ⟨1⟩ .terminated)) "boom" :: later =
      (trace ++ [.failure (.callback (.threadStateChanged ⟨1⟩ .terminated)) "boom"]) ++ later := by simp
  rw [hsplit, heard_append, heard_snoc, htold.1, farewells_append, farewells_append]
  simpa [Deed.told?, Task.told?, farewells] using hfarewell

end Session

end Pausepoint
