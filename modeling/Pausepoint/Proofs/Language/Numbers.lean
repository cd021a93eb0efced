import Pausepoint.Proofs.Language.Framing

/-!
# Pausepoint.Proofs.Language.Numbers

The numbers of scripts, whatever is replied.

`Trail` follows a run to which every reply is consent. A debugger may also refuse, and a pause may time
out, so that a run has many courses. On each of them the scripts that are loaded have ever higher
numbers, and the frames of a line are of scripts with numbers that were reached before.

* `Run.Climbs` — so it is from a number on, in every course, up to what holds at the end;
* `Interpreter.Below` — the scripts that an interpreter knows have numbers that were reached;
* `climbs_run` — the main result, for every script with a number above those of the scripts that the
  interpreter knows, by recursion on the room on the stack and the statements of a block.
-/

namespace Pausepoint.Language

/-- How far numbers have come after a checkpoint: past the script that it loads. -/
def Checkpoint.raise (bound : Nat) : Checkpoint → Nat
  | .load script _ => script.id.number + 1
  | .started | .line .. | .ended => bound

/-- A script that is loaded has a number that was not reached before. The scripts of frames have numbers
that were. -/
def Checkpoint.Respects (bound : Nat) : Checkpoint → Prop
  | .load script _ => bound ≤ script.id.number
  | .line _ _ _ frames => ∀ frame ∈ frames, frame.script.id.number < bound
  | .started | .ended => True

theorem Checkpoint.Respects.le_raise {bound : Nat} {point : Checkpoint} (h : point.Respects bound) :
    bound ≤ point.raise bound := by
  cases point with
  | load script depth => exact Nat.le_succ_of_le h
  | started | line | ended => exact Nat.le_refl bound

namespace Run

variable {α β : Type}

/-- Numbers climb in every course of a run. The result is such as they have come at the end. -/
def Climbs (post : Nat → α → Prop) : Nat → Run α → Prop
  | bound, .done a => post bound a
  | bound, .ask point _ resume =>
      point.Respects bound ∧ ∀ reply, (resume reply).Climbs post (point.raise bound)

/-- **One run after another.** -/
theorem climbs_bind {post : Nat → β → Prop} {r : Run α} {next : α → Run β} {bound : Nat}
    (h : r.Climbs (fun bound a => (next a).Climbs post bound) bound) : (r.bind next).Climbs post bound := by
  induction r generalizing bound with
  | done a => exact h
  | ask point heap resume ih => exact ⟨h.1, fun reply => ih reply (h.2 reply)⟩

theorem Climbs.mono {post post' : Nat → α → Prop} {r : Run α} {bound : Nat} (h : r.Climbs post bound)
    (hpost : ∀ bound a, post bound a → post' bound a) : r.Climbs post' bound := by
  induction r generalizing bound with
  | done a => exact hpost bound a h
  | ask point heap resume ih => exact ⟨h.1, fun reply => ih reply (h.2 reply)⟩

end Run

/-! ### What an interpreter knows -/

/-- The scripts on the stack and those of functions have numbers that were reached, and the number of the
next one was not. -/
structure Interpreter.Below (i : Interpreter) (bound : Nat) : Prop where
  next : bound ≤ i.nextScript
  stack : ∀ a ∈ i.stack, a.script.id.number < bound
  functions : ∀ name f, i.functions.get? name = some f → f.script.id.number < bound

theorem Interpreter.Below.mono {i : Interpreter} {bound bound' : Nat} (h : i.Below bound)
    (hle : bound ≤ bound') (hnext : bound' ≤ i.nextScript) : i.Below bound' where
  next := hnext
  stack a ha := Nat.lt_of_lt_of_le (h.stack a ha) hle
  functions name f hf := Nat.lt_of_lt_of_le (h.functions name f hf) hle

/-- Numbers climb, and the interpreter knows only what they have reached at the end. -/
def Run.Mounts (r : Run Outcome) (bound : Nat) : Prop :=
  r.Climbs (fun bound outcome => outcome.1.Below bound) bound

section

variable {i : Interpreter} {bound : Nat}

/-- One run after another, if the first succeeds. -/
theorem Run.mounts_andThen {r : Run Outcome} {next : Interpreter → Run Outcome} (h : r.Mounts bound)
    (hnext : ∀ i bound, i.Below bound → (next i).Mounts bound) : (r.andThen next).Mounts bound := by
  refine climbs_bind (h.mono fun bound outcome hbelow => ?_)
  obtain ⟨i, result⟩ := outcome
  cases result with
  | ok => exact hnext i bound hbelow
  | error fault => exact hbelow

/-- The reply to a checkpoint decides at most whether the run goes on. -/
theorem climbs_heed {post : Nat → Outcome → Prop} (h : ∀ result, post bound (i, result))
    (reply : Reply) : (heed i reply).Climbs post bound := by
  unfold heed
  split <;> exact h _

theorem mounts_checkpoint (h : i.Below bound) (line : Nat) : (checkpoint line i).Mounts bound := by
  unfold checkpoint
  split
  · exact h
  · next top below hstack =>
      have hold : ∀ a ∈ { top with line } :: below, a.script.id.number < bound := by
        have hstack' := h.stack
        rw [hstack] at hstack'
        exact List.forall_mem_cons.mpr (List.forall_mem_cons.mp hstack')
      refine ⟨fun frame hframe => ?_, climbs_heed fun _ => ⟨h.next, hold, h.functions⟩⟩
      obtain ⟨a, ha, rfl⟩ := List.mem_map.mp hframe
      rw [(frame_of_activation i.heapNumber a).1]
      exact hold a ha

end

/-! ### Blocks -/

/-- A block that may be entered: the script of one that is announced is new, any other one is known. -/
def Entry.Suits (e : Entry) (i : Interpreter) (bound : Nat) : Prop :=
  if e.announced then bound ≤ e.script.id.number ∧ e.script.id.number < i.nextScript
  else e.script.id.number < bound

section

variable {enter : Entry → Interpreter → Run Outcome} {i : Interpreter} {bound : Nat}

theorem mounts_loadScript
    (henter : ∀ e i bound, i.Below bound → e.Suits i bound → (enter e i).Mounts bound)
    (h : i.Below bound) {script : Script} (hnew : bound ≤ script.id.number)
    (hnext : script.id.number < i.nextScript) (kind : FrameKind) :
    (loadScript enter script kind i).Mounts bound := by
  unfold loadScript
  split
  · exact h
  · next body _ => exact henter _ i bound h ⟨hnew, hnext⟩

theorem mounts_runAction
    (henter : ∀ e i bound, i.Below bound → e.Suits i bound → (enter e i).Mounts bound)
    (h : i.Below bound) (line : Nat) (action : Action) : (runAction enter line i action).Mounts bound := by
  -- The number of an included or evaluated script is not reached before that script is announced.
  have htaken : i.takeScriptId.2.Below bound := ⟨Nat.le_succ_of_le h.next, h.stack, h.functions⟩
  cases action with
  | assign name e =>
      simp only [runAction]
      split
      · exact h
      · exact ⟨h.next, h.stack, h.functions⟩
  | print e =>
      simp only [runAction]
      split
      · exact h
      · exact ⟨h.next, h.stack, h.functions⟩
  | call name =>
      simp only [runAction]
      split
      · exact h
      · next f hf => exact henter _ i bound h (h.functions name f hf)
  | includeResource resource =>
      simp only [runAction]
      split
      · exact h
      · exact mounts_loadScript henter htaken h.next (Nat.lt_succ_self i.nextScript) _
  | eval code => exact mounts_loadScript henter htaken h.next (Nat.lt_succ_self i.nextScript) _

theorem mounts_runStatement
    (henter : ∀ e i bound, i.Below bound → e.Suits i bound → (enter e i).Mounts bound)
    (h : i.Below bound) (s : Statement) : (runStatement enter i s).Mounts bound := by
  cases s with
  | simple line action => exact mounts_runAction henter h line action
  | function line name body =>
      simp only [runStatement]
      split
      · exact h
      · next top below hstack =>
          refine ⟨h.next, h.stack, fun other f hf => ?_⟩
          have hget : (i.functions.insert name ⟨top.script, body⟩).get? other = some f := hf
          rw [Table.get?_insert] at hget
          split at hget
          · obtain rfl := Option.some.inj hget
            exact h.stack top (by rw [hstack]; exact List.mem_cons_self)
          · exact h.functions other f hget

theorem mounts_runBlock
    (henter : ∀ e i bound, i.Below bound → e.Suits i bound → (enter e i).Mounts bound)
    (body : List Statement) (h : i.Below bound) : (runBlock enter body i).Mounts bound := by
  induction body generalizing i bound with
  | nil => exact h
  | cons s rest ih =>
      unfold runBlock
      refine Run.mounts_andThen (mounts_checkpoint h s.line) fun i bound hi => ?_
      exact Run.mounts_andThen (mounts_runStatement henter hi s) fun i bound hi => ih hi

end

/-- What is announced is known from then on. -/
theorem climbs_announce {e : Entry} {i : Interpreter} {bound : Nat} (h : i.Below bound)
    (he : e.Suits i bound) :
    (announce e i).Climbs
      (fun bound outcome => outcome.1.Below bound ∧ e.script.id.number < bound) bound := by
  unfold announce
  unfold Entry.Suits at he
  split
  · next ha =>
      rw [if_pos ha] at he
      have hafter : i.Below (e.script.id.number + 1) := h.mono (Nat.le_succ_of_le he.1) he.2
      exact ⟨he.1, climbs_heed fun _ => ⟨hafter, Nat.lt_succ_self _⟩⟩
  · next ha =>
      rw [if_neg ha] at he
      exact ⟨h, he⟩

theorem Interpreter.Below.push {e : Entry} {i : Interpreter} {bound : Nat} (h : i.Below bound)
    (he : e.script.id.number < bound) : (i.push e).Below bound := by
  unfold Interpreter.push
  split <;> exact ⟨h.next, List.forall_mem_cons.mpr ⟨he, h.stack⟩, h.functions⟩

theorem Interpreter.Below.pop {i : Interpreter} {bound : Nat} (h : i.Below bound) : i.pop.Below bound :=
  ⟨h.next, fun a ha => h.stack a (List.mem_of_mem_tail ha), h.functions⟩

theorem mounts_enter (room : Nat) (e : Entry) {i : Interpreter} {bound : Nat} (h : i.Below bound)
    (he : e.Suits i bound) : (enter room e i).Mounts bound := by
  induction room generalizing e i bound with
  | zero => exact h
  | succ room ih =>
      unfold enter
      refine Run.climbs_bind ((climbs_announce h he).mono ?_)
      rintro bound ⟨i, result⟩ ⟨hi, hscript⟩
      -- The block runs with less room, and only if its announcement was not refused.
      cases result with
      | error fault => exact hi
      | ok =>
          have hblock := mounts_runBlock (fun e i bound hi he => ih e hi he) e.body (hi.push hscript)
          exact Run.climbs_bind (hblock.mono fun bound outcome hafter => hafter.pop)

/-! ### Whole runs -/

/-- An interpreter on which nothing has run knows no script. -/
theorem Interpreter.IsFresh.below {i : Interpreter} (h : i.IsFresh) {bound : Nat}
    (hnext : bound ≤ i.nextScript) : i.Below bound := by
  refine ⟨hnext, ?_, ?_⟩
  · rw [h.stack]
    exact fun a ha => absurd ha List.not_mem_nil
  · rw [h.functions]
    exact fun name f hf => by cases hf

/-- **Numbers climb in every course of a run**, if the number of the root script was taken after those of
all scripts that the interpreter knows. -/
theorem climbs_run {i : Interpreter} {script : Script} (h : i.Below script.id.number)
    (hnext : script.id.number < i.nextScript) :
    (i.run script).Climbs (fun _ _ => True) script.id.number := by
  have hload := mounts_loadScript (fun e i bound hi he => mounts_enter i.room e hi he) h
    (Nat.le_refl script.id.number) hnext .call
  refine ⟨trivial, fun reply => ?_⟩
  cases reply with
  | error cause => trivial
  | ok =>
      refine Run.climbs_bind (Run.climbs_bind (hload.mono fun bound outcome _ => ?_))
      exact ⟨trivial, fun _ => trivial⟩

end Pausepoint.Language
