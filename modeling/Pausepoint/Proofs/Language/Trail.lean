import Pausepoint.Language.Interpreter

/-!
# Pausepoint.Proofs.Language.Trail

What the checkpoints of a run say of the scripts it loads.

A debugger hears of a script before it hears of any of its lines, the scripts of one run have
different identities, and only the root script is loaded on an empty stack. `Trail` collects this for
a part of a run, together with what the next part needs: which scripts are on the stack, and which
scripts functions come from. Parts follow each other by `Trail.trans`; `trail_enter` closes the
recursion, and `checkpoints_run` is the result for a whole run.
-/

namespace Pausepoint.Language

/-! ### Scripts that were announced -/

/-- The scripts that were loaded, those before and those among some checkpoints. -/
def loadedAfter (seen : List Snapshot) : List Checkpoint → List Snapshot
  | [] => seen
  | .load script _ :: rest => loadedAfter (script :: seen) rest
  | .started :: rest | .line .. :: rest | .ended :: rest => loadedAfter seen rest

/-- Every line belongs to a script that was loaded before, and nothing starts or ends. -/
def Announced (seen : List Snapshot) : List Checkpoint → Prop
  | [] => True
  | .load script _ :: rest => Announced (script :: seen) rest
  | .line script _ _ _ :: rest => script ∈ seen ∧ Announced seen rest
  | .started :: _ | .ended :: _ => False

/-- The scripts that are loaded have ascending numbers, from one bound up to another. -/
def Ascending (next : Nat) : List Checkpoint → Nat → Prop
  | [], bound => next ≤ bound
  | .load script _ :: rest, bound =>
      next ≤ script.id.number ∧ Ascending (script.id.number + 1) rest bound
  | .started :: rest, bound | .line .. :: rest, bound | .ended :: rest, bound =>
      Ascending next rest bound

theorem loadedAfter_append (seen : List Snapshot) (points later : List Checkpoint) :
    loadedAfter seen (points ++ later) = loadedAfter (loadedAfter seen points) later := by
  induction points generalizing seen with
  | nil => rfl
  | cons point rest ih => cases point <;> exact ih _

theorem mem_loadedAfter {seen : List Snapshot} {script : Snapshot} (points : List Checkpoint)
    (h : script ∈ seen) : script ∈ loadedAfter seen points := by
  induction points generalizing seen with
  | nil => exact h
  | cons point rest ih =>
      cases point with
      | load s depth => exact ih (List.mem_cons_of_mem s h)
      | started | line | ended => exact ih h

theorem announced_append {seen : List Snapshot} {points later : List Checkpoint}
    (h : Announced seen points) (hlater : Announced (loadedAfter seen points) later) :
    Announced seen (points ++ later) := by
  induction points generalizing seen with
  | nil => exact hlater
  | cons point rest ih =>
      cases point with
      | load s depth =>
          show Announced (s :: seen) (rest ++ later)
          exact ih h hlater
      | line s line depth frames => exact ⟨h.1, ih h.2 hlater⟩
      | started | ended => exact h.elim

/-- The engine starts before all that. -/
theorem started_not_mem {seen : List Snapshot} {points : List Checkpoint} (h : Announced seen points) :
    .started ∉ points := by
  induction points generalizing seen with
  | nil => exact List.not_mem_nil
  | cons point rest ih =>
      rw [List.mem_cons, not_or]
      cases point with
      | load s depth => exact ⟨nofun, ih h⟩
      | line s line depth frames => exact ⟨nofun, ih h.2⟩
      | started | ended => exact h.elim

theorem ascending_mono {next next' : Nat} {points : List Checkpoint} {bound : Nat}
    (hle : next' ≤ next) (h : Ascending next points bound) : Ascending next' points bound := by
  induction points generalizing next next' with
  | nil => exact Nat.le_trans hle h
  | cons point rest ih =>
      cases point with
      | load s depth => exact ⟨Nat.le_trans hle h.1, h.2⟩
      | started | line | ended => exact ih hle h

theorem ascending_append {next mid bound : Nat} {points later : List Checkpoint}
    (h : Ascending next points mid) (hlater : Ascending mid later bound) :
    Ascending next (points ++ later) bound := by
  induction points generalizing next with
  | nil => exact ascending_mono h hlater
  | cons point rest ih =>
      cases point with
      | load s depth => exact ⟨h.1, ih h.2⟩
      | started | line | ended => exact ih h

/-! ### Trails -/

/-- The scripts on the stack and those of functions were loaded before. -/
structure Interpreter.Knows (i : Interpreter) (seen : List Snapshot) : Prop where
  stack : ∀ script ∈ i.stack.map Activation.script, script ∈ seen
  functions : ∀ name f, i.functions.get? name = some f → f.script ∈ seen

/-- The checkpoints between an interpreter and what becomes of it. -/
structure Trail (seen : List Snapshot) (i : Interpreter) (points : List Checkpoint)
    (i' : Interpreter) : Prop where
  announced : Announced seen points
  ascending : Ascending i.nextScript points i'.nextScript
  /-- Only a root script is loaded on an empty stack. -/
  deep : ∀ script depth, .load script depth ∈ points → depth ≠ 0
  stack : i'.stack.map Activation.script = i.stack.map Activation.script
  functions : ∀ name f, i'.functions.get? name = some f → f.script ∈ loadedAfter seen points

namespace Trail

variable {seen : List Snapshot} {i i' i'' : Interpreter} {points later : List Checkpoint}

theorem knows (h : Trail seen i points i') (hk : i.Knows seen) :
    i'.Knows (loadedAfter seen points) where
  stack := fun script hs => mem_loadedAfter points (hk.stack script (by rw [← h.stack]; exact hs))
  functions := h.functions

theorem trans (h : Trail seen i points i') (h' : Trail (loadedAfter seen points) i' later i'') :
    Trail seen i (points ++ later) i'' where
  announced := announced_append h.announced h'.announced
  ascending := ascending_append h.ascending h'.ascending
  deep script depth hmem := by
    rcases List.mem_append.mp hmem with hmem | hmem
    · exact h.deep script depth hmem
    · exact h'.deep script depth hmem
  stack := h'.stack.trans h.stack
  functions := by
    rw [loadedAfter_append]
    exact h'.functions

/-- Nothing is loaded, and no line is passed. -/
theorem quiet (hk : i.Knows seen) (hstack : i'.stack = i.stack)
    (hfunctions : i'.functions = i.functions) (hnext : i'.nextScript = i.nextScript) :
    Trail seen i [] i' where
  announced := trivial
  ascending := Nat.le_of_eq hnext.symm
  deep _ _ := nofun
  stack := by rw [hstack]
  functions := by
    rw [hfunctions]
    exact hk.functions

end Trail

/-- The trail of a run that nothing disturbs. -/
def Run.Leaves (r : Run Outcome) (seen : List Snapshot) (i : Interpreter) : Prop :=
  Trail seen i r.checkpoints r.undisturbed.1

section

variable {seen : List Snapshot} {i : Interpreter}

theorem Run.leaves_succeed (hk : i.Knows seen) {i' : Interpreter} (hstack : i'.stack = i.stack)
    (hfunctions : i'.functions = i.functions) (hnext : i'.nextScript = i.nextScript) :
    (succeed i').Leaves seen i :=
  Trail.quiet hk hstack hfunctions hnext

theorem Run.leaves_fail (hk : i.Knows seen) (fault : ScriptFault) : (fail i fault).Leaves seen i :=
  Trail.quiet hk rfl rfl rfl

/-- One run after another, if the first succeeds. -/
theorem Run.leaves_andThen {r : Run Outcome} {next : Interpreter → Run Outcome} (hk : i.Knows seen)
    (hne : i.stack ≠ []) (h : r.Leaves seen i)
    (hnext : ∀ i' seen', i'.Knows seen' → i'.stack ≠ [] → (next i').Leaves seen' i') :
    (r.andThen next).Leaves seen i := by
  unfold Leaves andThen at *
  rw [checkpoints_bind, undisturbed_bind]
  have hk' := h.knows hk
  have hne' : r.undisturbed.1.stack ≠ [] := by
    intro hnil
    have hstack := h.stack
    rw [hnil] at hstack
    exact hne (List.map_eq_nil_iff.mp hstack.symm)
  generalize r.undisturbed = outcome at h hk' hne' ⊢
  obtain ⟨i', result⟩ := outcome
  cases result with
  | ok => exact h.trans (hnext i' _ hk' hne')
  | error fault => exact h.trans (Trail.quiet hk' rfl rfl rfl)

theorem leaves_checkpoint (hk : i.Knows seen) (line : Nat) : (checkpoint line i).Leaves seen i := by
  unfold checkpoint
  split
  · exact Run.leaves_succeed hk rfl rfl rfl
  · next top below hstack =>
      have htop : top.script ∈ seen := hk.stack _ (by rw [hstack]; exact List.mem_cons_self)
      exact
        { announced := ⟨htop, trivial⟩
          ascending := Nat.le_refl _
          deep := by
            intro script depth hmem
            cases List.mem_singleton.mp hmem
          stack := by
            rw [hstack]
            rfl
          functions := hk.functions }

end

/-! ### Blocks -/

/-- What the debugger is told before an entry. -/
def announcement (e : Entry) (i : Interpreter) : List Checkpoint :=
  if e.announced then [.load e.script i.stack.length] else []

/-- What is shown of entering blocks, by recursion on the room that is left. -/
def EntersWell (enter : Entry → Interpreter → Run Outcome) : Prop :=
  ∀ e i seen, i.Knows seen → (e.announced = false → e.script ∈ seen) →
    ∃ head rest, (enter e i).checkpoints = head ++ rest ∧ (head = [] ∨ head = announcement e i) ∧
      Trail (loadedAfter seen head) i rest (enter e i).undisturbed.1

section

variable {enter : Entry → Interpreter → Run Outcome} {seen : List Snapshot} {i : Interpreter}

/-- Entering what is not announced. -/
theorem leaves_call (henter : EntersWell enter) (hk : i.Knows seen) (name : String) (line : Nat)
    {f : Function} (hf : f.script ∈ seen) : (enter (.ofCall name line f) i).Leaves seen i := by
  obtain ⟨head, rest, hpoints, hhead, htrail⟩ := henter (.ofCall name line f) i seen hk fun _ => hf
  obtain rfl : head = [] := by
    rcases hhead with hhead | hhead
    · exact hhead
    · exact hhead
  unfold Run.Leaves
  rw [hpoints]
  exact htrail

/-- Loading a script with an identity of its own. -/
theorem leaves_loadScript (henter : EntersWell enter) (hk : i.Knows seen) (hne : i.stack ≠ [])
    (script : Script) (hid : script.id = i.takeScriptId.1) (kind : FrameKind) :
    (loadScript enter script kind i.takeScriptId.2).Leaves seen i := by
  have hk' : i.takeScriptId.2.Knows seen := ⟨hk.stack, hk.functions⟩
  unfold loadScript
  split
  · exact
      { announced := trivial
        ascending := Nat.le_succ _
        deep := fun _ _ => nofun
        stack := rfl
        functions := hk.functions }
  · next body _ =>
      obtain ⟨head, rest, hpoints, hhead, htrail⟩ :=
        henter (.ofScript script.snapshot kind i.takeScriptId.2.currentScope body) i.takeScriptId.2
          seen hk' nofun
      unfold Run.Leaves
      rw [hpoints]
      -- The number of the script was the next one, and every later one is greater.
      rcases hhead with rfl | rfl
      · exact { htrail with ascending := ascending_mono (Nat.le_succ _) htrail.ascending }
      · have hnumber : script.snapshot.id.number = i.nextScript := congrArg ScriptId.number hid
        refine
          { announced := htrail.announced
            ascending := ⟨Nat.le_of_eq hnumber.symm, ?_⟩
            deep := fun s depth hmem => ?_
            stack := htrail.stack
            functions := htrail.functions }
        · show Ascending (script.snapshot.id.number + 1) rest _
          rw [hnumber]
          exact htrail.ascending
        · rcases List.mem_cons.mp hmem with hload | hmem
          · cases hload
            exact fun hzero => hne (List.length_eq_zero_iff.mp hzero)
          · exact htrail.deep s depth hmem

theorem leaves_runAction (henter : EntersWell enter) (hk : i.Knows seen) (hne : i.stack ≠ [])
    (line : Nat) (action : Action) : (runAction enter line i action).Leaves seen i := by
  cases action with
  | assign name e =>
      simp only [runAction]
      split
      · exact Run.leaves_fail hk _
      · exact Run.leaves_succeed hk rfl rfl rfl
  | print e =>
      simp only [runAction]
      split
      · exact Run.leaves_fail hk _
      · exact Run.leaves_succeed hk rfl rfl rfl
  | call name =>
      simp only [runAction]
      split
      · exact Run.leaves_fail hk _
      · next f hf => exact leaves_call henter hk name line (hk.functions name f hf)
  | includeResource resource =>
      simp only [runAction]
      split
      · exact Run.leaves_fail hk _
      · exact leaves_loadScript henter hk hne _ rfl _
  | eval code => exact leaves_loadScript henter hk hne _ rfl _

theorem leaves_runStatement (henter : EntersWell enter) (hk : i.Knows seen) (hne : i.stack ≠ [])
    (s : Statement) : (runStatement enter i s).Leaves seen i := by
  cases s with
  | simple line action => exact leaves_runAction henter hk hne line action
  | function line name body =>
      simp only [runStatement]
      split
      · exact Run.leaves_fail hk _
      · next top below hstack =>
          have htop : top.script ∈ seen := hk.stack _ (by rw [hstack]; exact List.mem_cons_self)
          refine { Trail.quiet hk rfl rfl rfl with functions := fun other f hf => ?_ }
          have hget : (i.functions.insert name ⟨top.script, body⟩).get? other = some f := hf
          rw [Table.get?_insert] at hget
          split at hget
          · cases hget
            exact htop
          · exact hk.functions other f hget

theorem leaves_runBlock (henter : EntersWell enter) (body : List Statement) (hk : i.Knows seen)
    (hne : i.stack ≠ []) : (runBlock enter body i).Leaves seen i := by
  induction body generalizing i seen with
  | nil => exact Run.leaves_succeed hk rfl rfl rfl
  | cons s rest ih =>
      unfold runBlock
      refine Run.leaves_andThen hk hne (leaves_checkpoint hk s.line) fun i' seen' hk' hne' => ?_
      exact Run.leaves_andThen hk' hne' (leaves_runStatement henter hk' hne' s) fun _ _ => ih

end

/-- An entry is announced first. -/
theorem announce_andThen (e : Entry) (i : Interpreter) (next : Interpreter → Run Outcome) :
    ((announce e i).andThen next).checkpoints = announcement e i ++ (next i).checkpoints ∧
      ((announce e i).andThen next).undisturbed = (next i).undisturbed := by
  unfold announce announcement
  split
  · exact ⟨rfl, rfl⟩
  · exact ⟨rfl, rfl⟩

/-- A block runs on an activation of its own, which is gone afterwards. -/
theorem trail_pop {seen : List Snapshot} {e : Entry} {i i' : Interpreter} {points : List Checkpoint}
    (h : Trail seen (i.push e) points i') : Trail seen i points i'.pop := by
  have hstack : (i.push e).stack.map Activation.script = e.script :: i.stack.map Activation.script ∧
      (i.push e).nextScript = i.nextScript := by
    unfold Interpreter.push
    split
    · exact ⟨rfl, rfl⟩
    · exact ⟨rfl, rfl⟩
  refine
    { announced := h.announced
      ascending := ?_
      deep := h.deep
      stack := ?_
      functions := h.functions }
  · rw [← hstack.2]
    exact h.ascending
  · show i'.stack.tail.map Activation.script = _
    rw [List.map_tail, h.stack, hstack.1, List.tail_cons]

/-- What is left of entering a block after its announcement. -/
def enterBlock (room : Nat) (e : Entry) (i : Interpreter) : Run Outcome :=
  (runBlock (enter room) e.body (i.push e)).bind fun outcome => .done (outcome.1.pop, outcome.2)

/-- Entering a block where there is room, if all is well with one activation more. -/
theorem trail_enter {room : Nat} (ih : EntersWell (enter room)) {e : Entry} {i : Interpreter}
    {seen : List Snapshot} (hk : i.Knows seen) (he : e.announced = false → e.script ∈ seen) :
    ∃ rest, (enter (room + 1) e i).checkpoints = announcement e i ++ rest ∧
      Trail (loadedAfter seen (announcement e i)) i rest (enter (room + 1) e i).undisturbed.1 := by
  obtain ⟨hpoints, hfinal⟩ := announce_andThen e i (enterBlock room e)
  have hold (s) (hs : s ∈ i.stack.map Activation.script) :=
    mem_loadedAfter (announcement e i) (hk.stack s hs)
  have hfunctions (name f) (hf : i.functions.get? name = some f) :=
    mem_loadedAfter (announcement e i) (hk.functions name f hf)
  have hscript : e.script ∈ loadedAfter seen (announcement e i) := by
    unfold announcement
    cases ha : e.announced with
    | true => exact List.mem_cons_self
    | false => exact he ha
  have hne : (i.push e).stack ≠ [] ∧ (i.push e).Knows (loadedAfter seen (announcement e i)) := by
    unfold Interpreter.push
    split
    · exact ⟨List.cons_ne_nil _ _, List.forall_mem_cons.mpr ⟨hscript, hold⟩, hfunctions⟩
    · exact ⟨List.cons_ne_nil _ _, List.forall_mem_cons.mpr ⟨hscript, hold⟩, hfunctions⟩
  have hblock := trail_pop (leaves_runBlock ih e.body hne.2 hne.1)
  refine ⟨_, hpoints, ?_⟩
  unfold enter
  show Trail _ i _ ((announce e i).andThen (enterBlock room e)).undisturbed.1
  rw [hfinal, enterBlock, Run.checkpoints_bind, Run.undisturbed_bind]
  exact hblock.trans (Trail.quiet (hblock.knows ⟨hold, hfunctions⟩) rfl rfl rfl)

theorem entersWell_enter (room : Nat) : EntersWell (enter room) := by
  induction room with
  | zero => exact fun e i seen hk _ => ⟨[], [], rfl, .inl rfl, Trail.quiet hk rfl rfl rfl⟩
  | succ room ih =>
      intro e i seen hk he
      obtain ⟨rest, hpoints, htrail⟩ := trail_enter ih hk he
      exact ⟨announcement e i, rest, hpoints, .inr rfl, htrail⟩

/-! ### Whole runs -/

/-- Nothing runs yet, and no function was defined. -/
structure Interpreter.IsFresh (i : Interpreter) : Prop where
  stack : i.stack = []
  functions : i.functions = .empty

/-- **The checkpoints of a run** on a fresh interpreter: between start and end, the root script is
loaded on the empty stack, if it has no syntax fault, and leaves a trail. -/
theorem checkpoints_run {i : Interpreter} (hf : i.IsFresh) (script : Script) :
    ∃ points, (i.run script).checkpoints = .started :: (points ++ [.ended]) ∧
      (points = [] ∨ ∃ rest i', points = .load script.snapshot 0 :: rest ∧
        Trail [script.snapshot] i rest i') := by
  have hpoints : (i.run script).checkpoints = .started :: ((i.runRoot script).checkpoints ++ [.ended]) := by
    show Checkpoint.started :: Run.checkpoints _ = _
    rw [Run.checkpoints_bind]
    rfl
  refine ⟨_, hpoints, ?_⟩
  unfold Interpreter.runRoot
  rw [Run.checkpoints_bind]
  unfold loadScript
  split
  · exact .inl rfl
  · next body _ =>
      have hk : i.Knows [] := by
        refine ⟨?_, ?_⟩
        · rw [hf.stack]
          exact fun _ => nofun
        · rw [hf.functions]
          exact fun _ _ => nofun
      -- The stack is empty, so there is room for the root.
      have hroom : i.room = 199 + 1 := by
        rw [Interpreter.room, hf.stack]
        rfl
      obtain ⟨rest, hpoints, htrail⟩ := trail_enter (entersWell_enter 199) hk
        (e := .ofScript script.snapshot .call i.currentScope body) nofun
      rw [hroom, hpoints, announcement, hf.stack]
      refine .inr ⟨_, _, ?_, htrail.trans (Trail.quiet (htrail.knows ⟨?_, ?_⟩) rfl rfl rfl)⟩
      · rfl
      · rw [hf.stack]
        exact fun _ => nofun
      · rw [hf.functions]
        exact fun _ _ => nofun

end Pausepoint.Language
