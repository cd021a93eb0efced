import Pausepoint.Proofs.Session.Pipeline

/-!
# Pausepoint.Proofs.Session.Prospect

The breakpoints that a script will have.

The engine keeps the breakpoints of every script, and changes them when a command arrives. What the ones
of a script will be once every command on its way has arrived is said by the commands alone, since each
of them adds one breakpoint to one script or takes one away: of the commands about a breakpoint and a
script the last one counts.

* `Command.revise`, `revised` — what commands make of the breakpoints of a script;
* `mem_revised_of_adds`, `mem_revised_of_removals` — which breakpoints are among them then;
* `ControlCall.revisions` — the commands about breakpoints that a call orders (`revised_call`);
* `mem_breakpoints_call` — what the call makes of the breakpoints that are set.
-/

namespace Pausepoint

/-! ### Commands about breakpoints -/

/-- What a command makes of the breakpoints of a script. -/
def Command.revise (id : ScriptId) : Command → List Breakpoint → List Breakpoint
  | .setBreakpoint script b action, list => if script = id then b.apply action list else list
  | .resume .., list | .terminate, list | .disconnect, list => list

/-- What commands make of them, one after the other. -/
def revised (id : ScriptId) (cs : List Command) (list : List Breakpoint) : List Breakpoint :=
  cs.foldl (fun list c => c.revise id list) list

section

variable {id : ScriptId} {b : Breakpoint} {c : Command} {cs : List Command}
  {list list' : List Breakpoint}

theorem mem_revise : b ∈ c.revise id list ↔
    b ∈ list ∧ c ≠ .setBreakpoint id b .remove ∨ c = .setBreakpoint id b .add := by
  cases c with
  | resume | terminate | disconnect => simp [Command.revise]
  | setBreakpoint script d action =>
      simp only [Command.revise, ne_eq, Command.setBreakpoint.injEq]
      by_cases hid : script = id
      · cases action with
        | add => simp [hid, Breakpoint.apply, eq_comm]
        | remove => simp [hid, Breakpoint.apply, eq_comm]
      · simp [hid]

@[simp] theorem revised_nil : revised id [] list = list := rfl

@[simp] theorem revised_cons : revised id (c :: cs) list = revised id cs (c.revise id list) := rfl

theorem revised_append (ds : List Command) :
    revised id (cs ++ ds) list = revised id ds (revised id cs list) :=
  List.foldl_append

/-- What becomes of a breakpoint is no matter of the others. -/
theorem mem_revised_congr (h : b ∈ list ↔ b ∈ list') :
    b ∈ revised id cs list ↔ b ∈ revised id cs list' := by
  induction cs generalizing list list' with
  | nil => exact h
  | cons c rest ih => exact ih (by rw [mem_revise, mem_revise, h])

/-- Where nothing takes a breakpoint away, it is there if it was, or comes. -/
theorem mem_revised_of_adds (h : .setBreakpoint id b .remove ∉ cs) :
    b ∈ revised id cs list ↔ b ∈ list ∨ .setBreakpoint id b .add ∈ cs := by
  induction cs generalizing list with
  | nil => simp
  | cons c rest ih =>
      obtain ⟨hc, hrest⟩ := not_or.mp (mt List.mem_cons.mpr h)
      rw [revised_cons, ih hrest, mem_revise, List.mem_cons, and_iff_left (Ne.symm hc), or_assoc,
        eq_comm (a := c)]

/-- Where nothing brings a breakpoint, it is there if it was, and nothing takes it away. -/
theorem mem_revised_of_removals (h : .setBreakpoint id b .add ∉ cs) :
    b ∈ revised id cs list ↔ b ∈ list ∧ .setBreakpoint id b .remove ∉ cs := by
  induction cs generalizing list with
  | nil => simp
  | cons c rest ih =>
      obtain ⟨hc, hrest⟩ := not_or.mp (mt List.mem_cons.mpr h)
      rw [revised_cons, ih hrest, mem_revise, or_iff_left (Ne.symm hc), List.mem_cons, not_or,
        and_assoc, ne_comm]

/-- Commands about other things make no difference. -/
theorem mem_revised_of_unrelated (h : ∀ action, .setBreakpoint id b action ∉ cs) :
    b ∈ revised id cs list ↔ b ∈ list := by
  rw [mem_revised_of_adds (h .remove), or_iff_left (h .add)]

end

/-! ### The breakpoints that are set -/

/-- The breakpoints of every resource are of that resource. -/
def BreakpointStore.Filed (store : BreakpointStore) : Prop :=
  ∀ resource, ∀ b ∈ store.forResource resource, b.resource = resource

namespace BreakpointStore

variable {store : BreakpointStore} {b c : Breakpoint}

theorem filed_empty : Filed {} := by
  intro resource b hb
  cases hb

theorem forResource_add (resource : String) : (store.add c).2.forResource resource =
    if resource = c.resource then c.addTo (store.forResource resource)
    else store.forResource resource := by
  unfold add Breakpoint.addTo
  dsimp only
  by_cases hr : resource = c.resource
  · subst hr
    by_cases hc : c ∈ store.forResource c.resource
    · simp [hc]
    · simp only [hc, if_false, if_true]
      simp [forResource]
  · rw [if_neg hr]
    split
    · rfl
    · simp [forResource, hr]

theorem forResource_remove (resource : String) : (store.remove c).2.forResource resource =
    if resource = c.resource then c.removeFrom (store.forResource resource)
    else store.forResource resource := by
  unfold remove
  dsimp only
  by_cases hr : resource = c.resource
  · subst hr
    by_cases hc : c ∈ store.forResource c.resource
    · simp only [hc, if_true]
      cases hrest : (c.removeFrom (store.forResource c.resource)).isEmpty with
      | true =>
          rw [List.isEmpty_iff.mp hrest]
          simp [forResource]
      | false => simp [forResource]
    · simp only [hc, if_false, if_true]
      refine (List.filter_eq_self.mpr fun d hd => ?_).symm
      exact decide_eq_true fun he => hc (he ▸ hd)
  · rw [if_neg hr]
    split
    · split <;> simp [forResource, hr]
    · rfl

theorem mem_add : b ∈ (store.add c).2.forResource b.resource ↔
    b ∈ store.forResource b.resource ∨ b = c := by
  rw [forResource_add]
  split
  · exact Breakpoint.mem_addTo
  · next hr =>
      have hne : b ≠ c := fun he => hr (congrArg Breakpoint.resource he)
      simp [hne]

theorem mem_remove : b ∈ (store.remove c).2.forResource b.resource ↔
    b ∈ store.forResource b.resource ∧ b ≠ c := by
  rw [forResource_remove]
  split
  · exact Breakpoint.mem_removeFrom
  · next hr =>
      have hne : b ≠ c := fun he => hr (congrArg Breakpoint.resource he)
      simp [hne]

theorem Filed.add (h : store.Filed) (c : Breakpoint) : (store.add c).2.Filed := by
  intro resource b hb
  rw [forResource_add] at hb
  split at hb
  · next hr =>
      rcases Breakpoint.mem_addTo.mp hb with hb | rfl
      · exact h resource b hb
      · exact hr.symm
  · exact h resource b hb

theorem Filed.remove (h : store.Filed) (c : Breakpoint) : (store.remove c).2.Filed := by
  intro resource b hb
  rw [forResource_remove] at hb
  split at hb
  · exact h resource b (Breakpoint.mem_removeFrom.mp hb).1
  · exact h resource b hb

end BreakpointStore

/-! ### Calls -/

/-- A call that is not about breakpoints, and does not stop the dispatcher. -/
def ControlCall.IsOther : ControlCall → Prop
  | .addBreakpoint _ | .removeBreakpoint _ | .setBreakpoint .. | .cancel => False
  | .resume .. | .resumeAll | .terminate | .disconnect | .readVariables .. => True

namespace Session

/-- An open queue that keeps duplicates takes every command. -/
theorem orderAll_plain {s : Session} (hopen : s.queue.closed = false) (hplain : s.queue.dedupe = false)
    (cs : List Command) : (s.orderAll cs).2 =
      { s with queue := { s.queue with events := s.queue.events ++ cs.map .command } } := by
  induction cs generalizing s with
  | nil => simp [orderAll]
  | cons c rest ih =>
      have hone : s.order c =
          (.ok (), { s with queue := { s.queue with events := s.queue.events ++ [.command c] } }) := by
        simp [order, submit, EventQueue.submit, hopen, hplain]
      rw [orderAll, hone]
      dsimp only
      rw [ih (s := { s with queue := { s.queue with events := s.queue.events ++ [.command c] } })
        hopen hplain]
      simp

theorem breakpoints_submit (s : Session) (c : Command) :
    (s.submit (.command c)).2.breakpoints = s.breakpoints := by
  unfold submit
  split <;> rfl

theorem breakpoints_order (s : Session) (c : Command) : (s.order c).2.breakpoints = s.breakpoints := by
  have hsubmit := s.breakpoints_submit c
  unfold order
  split <;> simp_all

theorem breakpoints_orderAll (s : Session) (cs : List Command) :
    (s.orderAll cs).2.breakpoints = s.breakpoints := by
  induction cs generalizing s with
  | nil => rfl
  | cons c rest ih =>
      have hone := s.breakpoints_order c
      unfold orderAll
      split
      · next horder =>
          rw [horder] at hone
          exact (ih _).trans hone
      · next horder =>
          rw [horder] at hone
          exact hone

theorem addBreakpoint_cases (s : Session) (b : Breakpoint) :
    b ∈ s.breakpoints.forResource b.resource ∧ (s.addBreakpoint b).2 = s ∨
      b ∉ s.breakpoints.forResource b.resource ∧ (s.addBreakpoint b).2 =
        (orderAll { s with breakpoints := (s.breakpoints.add b).2 } (s.forwardCommands b .add)).2 := by
  by_cases hb : b ∈ s.breakpoints.forResource b.resource
  · exact .inl ⟨hb, by simp [addBreakpoint, BreakpointStore.add, hb]⟩
  · exact .inr ⟨hb, by simp [addBreakpoint, BreakpointStore.add, hb]⟩

theorem removeBreakpoint_cases (s : Session) (b : Breakpoint) :
    b ∉ s.breakpoints.forResource b.resource ∧ (s.removeBreakpoint b).2 = s ∨
      b ∈ s.breakpoints.forResource b.resource ∧ (s.removeBreakpoint b).2 =
        (orderAll { s with breakpoints := (s.breakpoints.remove b).2 }
          (s.forwardCommands b .remove)).2 := by
  by_cases hb : b ∈ s.breakpoints.forResource b.resource
  · exact .inr ⟨hb, by simp [removeBreakpoint, BreakpointStore.remove, hb]⟩
  · exact .inl ⟨hb, by simp [removeBreakpoint, BreakpointStore.remove, hb]⟩

theorem mem_forwardCommands {s : Session} {id : ScriptId} {b c : Breakpoint}
    {action action' : BreakpointAction} : .setBreakpoint id b action ∈ s.forwardCommands c action' ↔
      id ∈ s.target.scriptsOnStacks c.resource ∧ c = b ∧ action' = action := by
  simp only [forwardCommands, List.mem_map, Command.setBreakpoint.injEq]
  constructor
  · rintro ⟨script, hscript, rfl, hc, ha⟩
    exact ⟨hscript, hc, ha⟩
  · rintro ⟨hid, hc, ha⟩
    exact ⟨id, hid, rfl, hc, ha⟩

/-- Any other call orders nothing about breakpoints, and leaves what is set. -/
theorem commanded_other (s : Session) {c : ControlCall} (hc : c.IsOther) :
    ∃ cs, s.Commanded (c.run s) cs ∧
      (∀ d ∈ cs, ∀ script b action, d ≠ .setBreakpoint script b action) ∧
      (c.run s).breakpoints = s.breakpoints := by
  -- None of these calls touches the store, or orders a change of breakpoints.
  cases c with
  | addBreakpoint | removeBreakpoint | setBreakpoint | cancel => exact hc.elim
  | resume thread mode =>
      obtain ⟨cs, hsub, hcs⟩ := s.commanded_resume thread mode
      refine ⟨cs, hcs, fun d hd script b action he => ?_, ?_⟩
      · cases he.symm.trans (List.mem_singleton.mp (hsub hd))
      · rw [ControlCall.run, resume]
        split
        · rfl
        · split
          · rfl
          · split
            · exact s.breakpoints_order _
            · rfl
  | resumeAll =>
      obtain ⟨cs, hall, hcs⟩ := s.commanded_resumeAll
      refine ⟨cs, hcs, fun d hd script b action he => ?_, ?_⟩
      · obtain ⟨thread, hthread⟩ := hall d hd
        cases he.symm.trans hthread
      · have hstore := s.breakpoints_orderAll
          (s.suspendedThreads.map fun id => .resume id .clientRequest)
        rw [ControlCall.run, resumeAll]
        split
        · rfl
        · dsimp only
          split <;> simp_all
  | terminate =>
      obtain ⟨cs, hsub, hcs⟩ := s.commanded_terminate
      refine ⟨cs, hcs, fun d hd script b action he => ?_, ?_⟩
      · cases he.symm.trans (List.mem_singleton.mp (hsub hd))
      · have hstore := s.breakpoints_order .terminate
        rw [ControlCall.run, terminate]
        split
        · rfl
        · split <;> simp_all
  | disconnect =>
      obtain ⟨cs, hsub, hcs⟩ := s.commanded_disconnect
      refine ⟨cs, hcs, fun d hd script b action he => ?_, ?_⟩
      · cases he.symm.trans (List.mem_singleton.mp (hsub hd))
      · rw [ControlCall.run, disconnect]
        split
        · rfl
        · exact s.breakpoints_order _
  | readVariables bindings thread slot =>
      refine ⟨[], s.commanded_readVariables bindings thread slot, by simp, ?_⟩
      rw [ControlCall.run, readVariables]
      split <;> rfl

/-- What is set stays in order. -/
theorem filed_call {s : Session} (h : s.breakpoints.Filed) (c : ControlCall) :
    (c.run s).breakpoints.Filed := by
  have hother {c : ControlCall} (hc : c.IsOther) : (c.run s).breakpoints.Filed := by
    obtain ⟨-, -, -, hstore⟩ := s.commanded_other hc
    rwa [hstore]
  cases c with
  | addBreakpoint b =>
      rw [ControlCall.run]
      obtain ⟨-, hsame⟩ | ⟨-, hrun⟩ := s.addBreakpoint_cases b
      · rwa [hsame]
      · rw [hrun, breakpoints_orderAll]
        exact h.add b
  | removeBreakpoint b =>
      rw [ControlCall.run]
      obtain ⟨-, hsame⟩ | ⟨-, hrun⟩ := s.removeBreakpoint_cases b
      · rwa [hsame]
      · rw [hrun, breakpoints_orderAll]
        exact h.remove b
  | setBreakpoint script b => rwa [ControlCall.run, setBreakpoint, breakpoints_order]
  | cancel => exact h
  | resume | resumeAll | terminate | disconnect | readVariables => exact hother trivial

/-! ### A script that follows what is set -/

/-- Once every command on its way has arrived, a script that has these breakpoints now has a breakpoint
exactly if it is set. -/
def KeepsUp (s : Session) (id : ScriptId) (b : Breakpoint) (installed : List Breakpoint) : Prop :=
  b ∈ revised id s.pipeline installed ↔ b ∈ s.breakpoints.forResource b.resource

/-- At rest it has it now. -/
theorem KeepsUp.at_rest {s : Session} {id : ScriptId} {b : Breakpoint} {installed : List Breakpoint}
    (h : s.KeepsUp id b installed) (hagenda : s.worker.agenda = []) (hevents : s.queue.events = []) :
    b ∈ installed ↔ b ∈ s.breakpoints.forResource b.resource := by
  rwa [KeepsUp, pipeline_of_idle hagenda, hevents, commandsOf_nil, revised_nil] at h

end Session

/-- What a call changes of a breakpoint reaches a script: the script is on a stack then, and a breakpoint
that is taken away is not about to be brought by the loading of the script. -/
def ControlCall.Reaches (s : Session) (id : ScriptId) (b : Breakpoint) : ControlCall → Prop
  | .addBreakpoint c => c = b → b ∉ s.breakpoints.forResource b.resource →
      id ∈ s.target.scriptsOnStacks b.resource
  | .removeBreakpoint c => c = b → b ∈ s.breakpoints.forResource b.resource →
      id ∈ s.target.scriptsOnStacks b.resource ∧ .setBreakpoint id b .add ∉ s.following
  | .setBreakpoint script c => script = id → c ≠ b
  | .resume .. | .resumeAll | .terminate | .disconnect | .readVariables .. | .cancel => True

namespace Session

section

variable {s s' : Session} {id : ScriptId} {b : Breakpoint} {installed : List Breakpoint}

/-- Commands about other things. -/
theorem KeepsUp.commanded (h : s.KeepsUp id b installed) {cs : List Command} (hcs : s.Commanded s' cs)
    (hother : ∀ action, .setBreakpoint id b action ∉ cs)
    (hset : b ∈ s'.breakpoints.forResource b.resource ↔ b ∈ s.breakpoints.forResource b.resource) :
    s'.KeepsUp id b installed := by
  rw [KeepsUp, pipeline, revised_append] at h
  rw [KeepsUp, hset, ← h, hcs.pipeline_split, revised_append, revised_append]
  exact mem_revised_congr (mem_revised_of_unrelated hother)

/-- **A call that reaches the script** changes for both sides alike. -/
theorem KeepsUp.call (h : s.KeepsUp id b installed) (hopen : s.queue.closed = false)
    (hplain : s.queue.dedupe = false) (hfollowing : .setBreakpoint id b .remove ∉ s.following)
    {c : ControlCall} (hc : c ≠ .cancel) (hreaches : c.Reaches s id b) :
    (c.run s).KeepsUp id b installed := by
  have hforward (breakpoints : BreakpointStore) (d : Breakpoint) (action : BreakpointAction) :
      s.Commanded (orderAll { s with breakpoints } (s.forwardCommands d action)).2
        (s.forwardCommands d action) ∧
      (orderAll { s with breakpoints } (s.forwardCommands d action)).2.breakpoints = breakpoints := by
    rw [orderAll_plain (s := { s with breakpoints }) hopen hplain]
    exact ⟨⟨rfl, rfl, .refl _, rfl, fun hclosed => by cases hopen.symm.trans hclosed⟩, rfl⟩
  have hother {c : ControlCall} (hc : c.IsOther) : (c.run s).KeepsUp id b installed := by
    obtain ⟨cs, hcs, hnone, hstore⟩ := s.commanded_other hc
    exact h.commanded hcs (fun action hmem => hnone _ hmem id b action rfl) (by rw [hstore])
  cases c with
  | cancel => exact absurd rfl hc
  | addBreakpoint d =>
      obtain ⟨hd, hsame⟩ | ⟨hd, hrun⟩ := s.addBreakpoint_cases d
      · rwa [ControlCall.run, hsame]
      · obtain ⟨hcs, hstore⟩ := hforward (s.breakpoints.add d).2 d .add
        rw [ControlCall.run, hrun]
        by_cases he : d = b
        · subst he
          have hon := hreaches rfl hd
          -- Nothing behind the command takes the breakpoint away, so that the command decides.
          have hall : .setBreakpoint id d .remove ∉ s.forwardCommands d .add ++ s.following := by
            simp [mem_forwardCommands, hfollowing]
          rw [KeepsUp, hstore, BreakpointStore.mem_add, hcs.pipeline_split, revised_append,
            mem_revised_of_adds hall, List.mem_append, mem_forwardCommands]
          simp [hon]
        · refine h.commanded hcs (fun action hmem => he (mem_forwardCommands.mp hmem).2.1) ?_
          rw [hstore, BreakpointStore.mem_add, or_iff_left (Ne.symm he)]
  | removeBreakpoint d =>
      obtain ⟨hd, hsame⟩ | ⟨hd, hrun⟩ := s.removeBreakpoint_cases d
      · rwa [ControlCall.run, hsame]
      · obtain ⟨hcs, hstore⟩ := hforward (s.breakpoints.remove d).2 d .remove
        rw [ControlCall.run, hrun]
        by_cases he : d = b
        · subst he
          obtain ⟨hon, hnone⟩ := hreaches rfl hd
          -- Here the load might bring it back, which the call rules out.
          have hall : .setBreakpoint id d .add ∉ s.forwardCommands d .remove ++ s.following := by
            simp [mem_forwardCommands, hnone]
          rw [KeepsUp, hstore, BreakpointStore.mem_remove, hcs.pipeline_split, revised_append,
            mem_revised_of_removals hall, List.mem_append, mem_forwardCommands]
          simp [hon]
        · refine h.commanded hcs (fun action hmem => he (mem_forwardCommands.mp hmem).2.1) ?_
          rw [hstore, BreakpointStore.mem_remove, and_iff_left (Ne.symm he)]
  | setBreakpoint script d =>
      obtain ⟨cs, hsub, hcs⟩ := s.commanded_setBreakpoint script d
      refine h.commanded hcs (fun action hmem => ?_) ?_
      · obtain ⟨rfl, rfl, -⟩ : id = script ∧ b = d ∧ action = .add := by
          simpa using hsub hmem
        exact hreaches rfl rfl
      · rw [ControlCall.run, setBreakpoint, breakpoints_order]
  | resume | resumeAll | terminate | disconnect | readVariables => exact hother trivial

/-! ### Tasks and events -/

/-- Where nothing is dropped, a task takes what it passes on off the pipeline, and nothing else. -/
theorem pipeline_perform_plain {task : Task} (hopen : s.queue.closed = false)
    (hplain : s.queue.dedupe = false) (htask : task ≠ .closeQueue)
    (hs : s.perform? = some (task, s')) : s.pipeline = task.forwarded?.toList ++ s'.pipeline := by
  have hforwards := forwards_perform hs
  have hfollowing := following_perform hs
  obtain ⟨rest, -, rfl⟩ := perform?_cases hs
  unfold pipeline
  rw [hforwards, hfollowing]
  cases task with
  | closeQueue => exact absurd rfl htask
  | followUp c =>
      have hmore : ((s.withAgenda rest).effect (.followUp c)).queue.events =
          s.queue.events ++ [.command c] := by
        simp [effect, submit, EventQueue.submit, withAgenda, hopen, hplain]
      rw [hmore]
      simp [Task.forwarded?, Task.followUp?]
  | release | releaseAll | callback | command | forward | lastCallback | closeGate | forwardClosed
  | announceClosed | finish =>
      simp only [Task.forwarded?, Task.followUp?, Option.toList_none, Option.toList_some,
        List.nil_append, List.append_assoc]
      rfl

/-- **A task** passes on what it takes. -/
theorem KeepsUp.perform {task : Task} (h : s.KeepsUp id b installed) (hopen : s.queue.closed = false)
    (hplain : s.queue.dedupe = false) (htask : task ≠ .closeQueue)
    (hs : s.perform? = some (task, s')) :
    s'.KeepsUp id b (revised id task.forwarded?.toList installed) := by
  have hstore : s'.breakpoints = s.breakpoints := by
    obtain ⟨rest, -, rfl⟩ := perform?_cases hs
    exact breakpoints_effect _ task
  rwa [KeepsUp, pipeline_perform_plain hopen hplain htask hs, revised_append, ← hstore] at h

/-- A loaded script brings breakpoints that are set, for itself. -/
theorem mem_followUps {t : Target} {store : BreakpointStore} (hfiled : store.Filed) {n : Notification}
    {action : BreakpointAction}
    (h : .setBreakpoint id b action ∈ (t.handleNotification store n).1.followUps) :
    action = .add ∧ b ∈ store.forResource b.resource ∧
      ∃ thread script root, n = .scriptReady thread script root ∧ script.id = id := by
  by_cases hload : ∃ thread script root, n = .scriptReady thread script root
  · obtain ⟨thread, script, root, rfl⟩ := hload
    have hmem : Command.setBreakpoint id b action ∈
        Target.installCommands store script ++ [.resume thread (t.modeFor root)] := by
      cases hstate : t.state with
      | notStarted | terminated =>
          simp only [Target.handleNotification, hstate] at h
          cases h
      | running =>
          simp only [Target.handleNotification, hstate] at h
          exact Target.followUps_scriptReady t store thread script root h
    rcases List.mem_append.mp hmem with hmem | hmem
    · unfold Target.installCommands at hmem
      split at hmem
      · next resource _ =>
          obtain ⟨d, hd, he⟩ := List.mem_map.mp hmem
          cases he
          rw [hfiled resource b hd]
          exact ⟨rfl, hd, thread, script, root, rfl, rfl⟩
      · cases hmem
    · cases List.mem_singleton.mp hmem
  · rw [Target.followUps_of_ne t store fun thread script root he => hload ⟨thread, script, root, he⟩] at h
    cases h

/-- **A report** brings breakpoints that are set. -/
theorem KeepsUp.report (h : s.KeepsUp id b installed) (hfiled : s.breakpoints.Filed)
    (hidle : s.worker.agenda = []) {n : Notification} {rest : List Event}
    (hevents : s.queue.events = .notification n :: rest) :
    ((s.withEvents rest).handle (.notification n)).KeepsUp id b installed := by
  -- What it brings is set anyway, so that the answer stays the same.
  have hremove : .setBreakpoint id b .remove ∉
      (s.target.handleNotification s.breakpoints n).1.followUps := fun hmem => by
    cases (mem_followUps hfiled hmem).1
  have hstore : ((s.withEvents rest).handle (.notification n)).breakpoints = s.breakpoints := by
    rw [handle_eq]
    rfl
  rw [KeepsUp, (pipeline_report hidle hevents).1, revised_append, mem_revised_of_adds hremove, hstore,
    show b ∈ revised id s.pipeline installed ↔ _ from h]
  exact or_iff_left_of_imp fun hmem => (mem_followUps hfiled hmem).2.1

/-- **A command** that a running session drops is not about breakpoints. -/
theorem KeepsUp.command (h : s.KeepsUp id b installed) (hlive : s.target.isTerminated = false)
    (hidle : s.worker.agenda = []) {c : Command} {rest : List Event}
    (hevents : s.queue.events = .command c :: rest) :
    ((s.withEvents rest).handle (.command c)).KeepsUp id b installed := by
  obtain ⟨hbefore, hafter, -⟩ := pipeline_command hidle hevents
  have hstore : ((s.withEvents rest).handle (.command c)).breakpoints = s.breakpoints := by
    rw [handle_eq]
    rfl
  rw [KeepsUp, hbefore] at h
  rw [KeepsUp, hafter, hstore, ← h]
  cases c with
  | setBreakpoint script d action =>
      have hdelivered : (s.target.handleCommand (.setBreakpoint script d action)).1.deliver = true := by
        simp [Target.handleCommand, hlive]
      rw [if_pos hdelivered]
      rfl
  | resume | terminate | disconnect => split <;> rfl

/-- **A script is loaded** that the engine does not have a breakpoint for. From then on it follows what is
set. -/
theorem keepsUp_of_load (hindexed : s.target.registry.Indexed) (hrunning : s.target.state = .running)
    (hidle : s.worker.agenda = []) {thread : ThreadId} {script : Snapshot} {root : Bool}
    {rest : List Event} (hevents : s.queue.events = .notification (.scriptReady thread script root) :: rest)
    (hfinds : (Notification.scriptReady thread script root).Finds (s.target.stateOf thread))
    (hconcerns : script.resource = some b.resource)
    (hnew : b ∉ revised script.id s.pipeline installed) :
    ((s.withEvents rest).handle (.notification (.scriptReady thread script root))).KeepsUp
      script.id b installed := by
  obtain ⟨-, -, -, -, hfollowUps⟩ :=
    Target.moves_of_scriptReady hindexed hrunning s.breakpoints script root hfinds
  have hshown : (s.target.options.showDynamicCode || !script.isDynamic) = true := by
    simp [Snapshot.isDynamic, hconcerns]
  have hremove : .setBreakpoint script.id b .remove ∉
      Target.installCommands s.breakpoints script ++ [.resume thread (s.target.modeFor root)] := by
    simp [Target.installCommands, hconcerns]
  have hstore : ((s.withEvents rest).handle (.notification (.scriptReady thread script root))).breakpoints
      = s.breakpoints := by
    rw [handle_eq]
    rfl
  rw [KeepsUp, (pipeline_report hidle hevents).1, hfollowUps, if_pos hshown, revised_append,
    mem_revised_of_adds hremove, hstore, or_iff_right hnew]
  simp [Target.installCommands, hconcerns]

end

end Session

end Pausepoint
