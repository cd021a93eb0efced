import Pausepoint.Proofs.Language.Balance

/-!
# Pausepoint.Proofs.Language.Seclusion

Which scopes a piece of a script can change.

Scopes are shared: an inclusion or an evaluation writes to the scope of whoever asked for it, and a call
writes to a scope that did not exist before. So of the scopes that are there already, whatever runs changes
at most the current one (`Interpreter.Confines`), and a call changes none (`calls_are_isolated`). This holds
with a debugger as well, wherever it stops the script: `Run.MayEnd` gives the ends of a run for all replies.

Proof shape: `Turn.Confined` is what a single statement keeps, and `secludes_enter` what a block keeps, by
induction on the room on the stack and the statements of the block. As stacks are balanced, the current
scope after a statement is that before it, so that statements follow each other (`Confines.trans`).
-/

namespace Pausepoint.Language

/-! ### How runs end -/

namespace Run

variable {α β : Type}

/-- A run may end with a result, depending on the replies. -/
inductive MayEnd : Run α → α → Prop
  | done (a : α) : MayEnd (.done a) a
  | ask {point : Checkpoint} {heap : Heap} {resume : Reply → Run α} {a : α} (reply : Reply)
      (h : MayEnd (resume reply) a) : MayEnd (.ask point heap resume) a

theorem mayEnd_done {a b : α} : MayEnd (.done a) b ↔ b = a := by
  constructor
  · intro h
    cases h
    rfl
  · rintro rfl
    exact .done b

theorem mayEnd_bind {r : Run α} {next : α → Run β} {b : β} :
    MayEnd (r.bind next) b ↔ ∃ a, MayEnd r a ∧ MayEnd (next a) b := by
  constructor
  · intro h
    induction r with
    | done a => exact ⟨a, .done a, h⟩
    | ask point heap resume ih =>
        cases h with
        | ask reply h =>
            obtain ⟨a, ha, hb⟩ := ih reply h
            exact ⟨a, .ask reply ha, hb⟩
  · rintro ⟨a, ha, hb⟩
    induction ha with
    | done a => exact hb
    | ask reply h ih => exact .ask reply (ih hb)

/-- A run that nothing disturbs is one of them. -/
theorem mayEnd_undisturbed (r : Run α) : r.MayEnd r.undisturbed := by
  induction r with
  | done a => exact .done a
  | ask point heap resume ih => exact .ask (.ok ()) (ih (.ok ()))

/-- One run after another, if the first succeeds. -/
theorem MayEnd.andThen {r : Run Outcome} {next : Interpreter → Run Outcome} {outcome : Outcome}
    (h : (r.andThen next).MayEnd outcome) :
    (∃ i, r.MayEnd (i, .ok ()) ∧ (next i).MayEnd outcome) ∨ r.MayEnd outcome := by
  obtain ⟨⟨i, result⟩, hr, hnext⟩ := mayEnd_bind.mp h
  cases result with
  | ok => exact .inl ⟨i, hr, hnext⟩
  | error fault =>
      obtain rfl := mayEnd_done.mp hnext
      exact .inr hr

end Run

/-! ### Confinement -/

/-- What came of an interpreter when something ran on it: it stands where it stood, it has printed more and
taken more identities, and of the scopes that were there only the current one may be another. -/
structure Interpreter.Confines (i j : Interpreter) : Prop where
  heapNumber : j.heapNumber = i.heapNumber
  resources : j.resources = i.resources
  files : j.files = i.files
  stack : ∃ line, j.stack = Language.atLine line i.stack
  nextScript : i.nextScript ≤ j.nextScript
  output : i.output.toList <+: j.output.toList
  next : i.heap.next ≤ j.heap.next
  bindings : ∀ index < i.heap.next, index ≠ i.currentScope → j.heap.bindings index = i.heap.bindings index

/-- To be at another line is to be in the same scope. -/
theorem currentScope_of_atLine {i j : Interpreter} {line : Nat} (h : j.stack = atLine line i.stack) :
    j.currentScope = i.currentScope := by
  unfold Interpreter.currentScope
  rw [h]
  cases i.stack <;> rfl

namespace Interpreter.Confines

variable {i j k : Interpreter}

theorem currentScope (h : i.Confines j) : j.currentScope = i.currentScope := by
  obtain ⟨line, hline⟩ := h.stack
  exact currentScope_of_atLine hline

/-- Resources have the same texts. -/
theorem load (h : i.Confines j) (resource : String) : j.load resource = i.load resource := by
  unfold Interpreter.load
  rw [h.resources, h.files]

theorem refl (i : Interpreter) : i.Confines i where
  heapNumber := rfl
  resources := rfl
  files := rfl
  stack := exists_eq_atLine i.stack
  nextScript := Nat.le_refl _
  output := List.prefix_refl _
  next := Nat.le_refl _
  bindings _ _ _ := rfl

/-- **What runs after what runs** is confined to the same scope. -/
theorem trans (h : i.Confines j) (h' : j.Confines k) : i.Confines k where
  heapNumber := h'.heapNumber.trans h.heapNumber
  resources := h'.resources.trans h.resources
  files := h'.files.trans h.files
  stack := by
    obtain ⟨line, hline⟩ := h.stack
    obtain ⟨line', hline'⟩ := h'.stack
    exact ⟨line', by rw [hline', hline, atLine_atLine]⟩
  nextScript := Nat.le_trans h.nextScript h'.nextScript
  output := h.output.trans h'.output
  next := Nat.le_trans h.next h'.next
  bindings index hindex hother := by
    rw [← h.bindings index hindex hother]
    exact h'.bindings index (Nat.lt_of_lt_of_le hindex h.next) (by rwa [h.currentScope])

theorem atLine (i : Interpreter) (line : Nat) : i.Confines (i.atLine line) where
  heapNumber := rfl
  resources := rfl
  files := rfl
  stack := ⟨line, rfl⟩
  nextScript := Nat.le_refl _
  output := List.prefix_refl _
  next := Nat.le_refl _
  bindings _ _ _ := rfl

end Interpreter.Confines

/-! ### Statements -/

/-- A turn that changes the current scope at most, and enters a block in that scope or in a new one. -/
def Turn.Confined (i : Interpreter) : Turn → Prop
  | .ended outcome => i.Confines outcome.1
  | .into e j => i.Confines j ∧ ∀ scope, e.scope = some scope → scope = j.currentScope

section

variable (i : Interpreter)

/-- To take an identity changes nothing else. -/
theorem confines_takeScriptId : i.Confines i.takeScriptId.2 :=
  { Interpreter.Confines.refl i with nextScript := Nat.le_succ _ }

theorem confined_scriptTurn (script : Script) (kind : FrameKind) : (scriptTurn script kind i).Confined i := by
  unfold scriptTurn
  split
  · exact .refl i
  · exact ⟨.refl i, fun scope hscope => (Option.some.inj hscope).symm⟩

/-- A script that is loaded under a new identity. -/
theorem confined_loadTurn (script : Script) (kind : FrameKind) :
    (scriptTurn script kind i.takeScriptId.2).Confined i := by
  have hturn := confined_scriptTurn i.takeScriptId.2 script kind
  cases h : scriptTurn script kind i.takeScriptId.2 with
  | ended outcome =>
      rw [h] at hturn
      exact (confines_takeScriptId i).trans hturn
  | into e j =>
      rw [h] at hturn
      exact ⟨(confines_takeScriptId i).trans hturn.1, hturn.2⟩

theorem confined_actionTurn (line : Nat) (a : Action) : (actionTurn line i a).Confined i := by
  cases a with
  | assign name e =>
      unfold actionTurn
      dsimp only
      split
      · exact .refl i
      · next v _ =>
          exact
            { Interpreter.Confines.refl i with
              next := Nat.le_of_eq (Heap.next_set _ _ _ _).symm
              bindings := fun index _ hother => Heap.bindings_set_of_ne _ name v hother }
  | print e =>
      unfold actionTurn
      dsimp only
      split
      · exact .refl i
      · exact { Interpreter.Confines.refl i with output := by simp }
  | call name =>
      unfold actionTurn
      dsimp only
      split
      · exact .refl i
      · exact ⟨.refl i, by simp [Entry.ofCall]⟩
  | includeResource resource =>
      unfold actionTurn
      dsimp only
      split
      · exact .refl i
      · exact confined_loadTurn i _ _
  | eval code => exact confined_loadTurn i _ _

/-- **A single statement** changes the current scope at most. -/
theorem confined_statementTurn (s : Statement) : (statementTurn i s).Confined i := by
  cases s with
  | simple line a => exact confined_actionTurn i line a
  | function line name body =>
      unfold statementTurn
      dsimp only
      split
      · exact .refl i
      · exact { Interpreter.Confines.refl i with }

end

/-! ### Blocks -/

/-- What came of an interpreter without a change to any scope that was there. -/
structure Interpreter.Spares (i j : Interpreter) : Prop where
  confines : i.Confines j
  stack : j.stack = i.stack
  bindings : ∀ index < i.heap.next, j.heap.bindings index = i.heap.bindings index

/-- A block that was run on an activation of its own is left, and the stack is as before. -/
theorem stack_pop {i k : Interpreter} {e : Entry} (h : (i.push e).Confines k) : k.pop.stack = i.stack := by
  obtain ⟨top, htop, -⟩ := exists_top_push i e
  obtain ⟨line, hline⟩ := h.stack
  rw [Interpreter.pop, hline, htop]
  rfl

/-- A block that is entered changes the heap and the stack at most. -/
theorem push_frame (i : Interpreter) (e : Entry) :
    (i.push e).heapNumber = i.heapNumber ∧ (i.push e).resources = i.resources ∧
      (i.push e).files = i.files ∧ (i.push e).nextScript = i.nextScript ∧ (i.push e).output = i.output := by
  unfold Interpreter.push
  cases e.scope <;> exact ⟨rfl, rfl, rfl, rfl, rfl⟩

/-- Of a block that was left, only the changes to scopes that were there before count. -/
theorem confines_pop_of {i k : Interpreter} {e : Entry} (h : (i.push e).Confines k)
    (hnext : i.heap.next ≤ k.heap.next)
    (hbindings : ∀ index < i.heap.next, index ≠ i.currentScope →
      k.heap.bindings index = i.heap.bindings index) : i.Confines k.pop := by
  obtain ⟨hnumber, hresources, hfiles, hscript, houtput⟩ := push_frame i e
  exact
    { heapNumber := h.heapNumber.trans hnumber
      resources := h.resources.trans hresources
      files := h.files.trans hfiles
      stack := by
        rw [stack_pop h]
        exact exists_eq_atLine i.stack
      nextScript := hscript ▸ h.nextScript
      output := houtput ▸ h.output
      next := hnext
      bindings := hbindings }

/-- **A block is left**: in the scope of whoever entered it, that one may be another; in a new scope, none
is. -/
theorem confines_pop {i k : Interpreter} {e : Entry}
    (hscope : ∀ scope, e.scope = some scope → scope = i.currentScope) (h : (i.push e).Confines k) :
    i.Confines k.pop ∧ (e.scope = none → i.Spares k.pop) := by
  have hnext := h.next
  have hbindings := h.bindings
  unfold Interpreter.push at hnext hbindings
  cases hnew : e.scope with
  | some scope =>
      simp only [hnew] at hnext hbindings
      obtain rfl := hscope scope hnew
      exact ⟨confines_pop_of h hnext hbindings, by simp⟩
  | none =>
      simp only [hnew, Heap.next_create] at hnext hbindings
      -- The block writes to the new scope, which is none of those that were there.
      have hall (index : Nat) (hindex : index < i.heap.next) :
          k.heap.bindings index = i.heap.bindings index := by
        rw [← Heap.bindings_create i.heap]
        exact hbindings index (Nat.lt_succ_of_lt hindex) (Nat.ne_of_lt hindex)
      have hconfines := confines_pop_of h (Nat.le_of_succ_le hnext) fun index hindex _ => hall index hindex
      exact ⟨hconfines, fun _ => ⟨hconfines, stack_pop h, hall⟩⟩

/-- Heeding a reply changes nothing. -/
theorem eq_of_mayEnd_heed {i : Interpreter} {reply : Reply} {outcome : Outcome}
    (h : (heed i reply).MayEnd outcome) : outcome.1 = i := by
  unfold heed at h
  split at h <;> rw [Run.mayEnd_done.mp h]

theorem confines_checkpoint {line : Nat} {i : Interpreter} {outcome : Outcome}
    (h : (checkpoint line i).MayEnd outcome) : i.Confines outcome.1 := by
  unfold checkpoint at h
  split at h
  · rw [Run.mayEnd_done.mp h]
    exact .refl i
  · next top below hstack =>
      have hline : { i with stack := { top with line } :: below } = i.atLine line := by
        rw [Interpreter.atLine, hstack]
        rfl
      cases h with
      | ask reply h =>
          rw [eq_of_mayEnd_heed h, hline]
          exact .atLine i line

theorem eq_of_mayEnd_announce {e : Entry} {i : Interpreter} {outcome : Outcome}
    (h : (announce e i).MayEnd outcome) : outcome.1 = i := by
  unfold announce at h
  split at h
  · cases h with
    | ask reply h => exact eq_of_mayEnd_heed h
  · rw [Run.mayEnd_done.mp h]

/-- What is shown of entering blocks, by induction on the room that is left: an entry into the current scope
is confined to it, and one into a new scope spares all. -/
def Secludes (enter : Entry → Interpreter → Run Outcome) : Prop :=
  ∀ e i outcome, (∀ scope, e.scope = some scope → scope = i.currentScope) →
    (enter e i).MayEnd outcome → i.Confines outcome.1 ∧ (e.scope = none → i.Spares outcome.1)

section

variable {enter : Entry → Interpreter → Run Outcome}

theorem confines_runStatement (henter : Secludes enter) {s : Statement} {i : Interpreter}
    {outcome : Outcome} (h : (runStatement enter i s).MayEnd outcome) : i.Confines outcome.1 := by
  rw [runStatement_eq] at h
  have hturn := confined_statementTurn i s
  cases ht : statementTurn i s with
  | ended ended =>
      rw [ht] at h hturn
      rw [Run.mayEnd_done.mp h]
      exact hturn
  | into e j =>
      rw [ht] at h hturn
      exact hturn.1.trans (henter e j outcome hturn.2 h).1

theorem confines_runBlock (henter : Secludes enter) {body : List Statement} {i : Interpreter}
    {outcome : Outcome} (h : (runBlock enter body i).MayEnd outcome) : i.Confines outcome.1 := by
  induction body generalizing i with
  | nil =>
      rw [Run.mayEnd_done.mp h]
      exact .refl i
  | cons s rest ih =>
      unfold runBlock at h
      rcases h.andThen with ⟨j, hpoint, h⟩ | hpoint
      · have hj := confines_checkpoint hpoint
        rcases h.andThen with ⟨k, hs, h⟩ | hs
        · exact (hj.trans (confines_runStatement henter hs)).trans (ih h)
        · exact hj.trans (confines_runStatement henter hs)
      · exact confines_checkpoint hpoint

end

/-- **Blocks are secluded**, with any room on the stack. -/
theorem secludes_enter (room : Nat) : Secludes (enter room) := by
  induction room with
  | zero =>
      intro e i outcome hscope h
      rw [Run.mayEnd_done.mp h]
      exact ⟨.refl i, fun _ => ⟨.refl i, rfl, fun _ _ => rfl⟩⟩
  | succ room ih =>
      intro e i outcome hscope h
      unfold enter at h
      rcases h.andThen with ⟨j, hannounced, hblock⟩ | hannounced
      · obtain rfl := eq_of_mayEnd_announce hannounced
        obtain ⟨last, hbody, hlast⟩ := Run.mayEnd_bind.mp hblock
        rw [Run.mayEnd_done.mp hlast]
        exact confines_pop hscope (confines_runBlock ih hbody)
      · rw [eq_of_mayEnd_announce hannounced]
        exact ⟨.refl i, fun _ => ⟨.refl i, rfl, fun _ _ => rfl⟩⟩

/-! ### Interpreters in use -/

/-- The globals and every scope on the stack were created. -/
structure Interpreter.Housed (i : Interpreter) : Prop where
  globals : globalScope < i.heap.next
  stack : ∀ a ∈ i.stack, a.scope < i.heap.next

theorem housed_new (resources : Table String String) (files : String → Option String) :
    Interpreter.Housed { resources, files } where
  globals := Nat.zero_lt_one
  stack := by simp

theorem scope_of_mem_atLine {line : Nat} {stack : List Activation} {a : Activation}
    (h : a ∈ atLine line stack) : ∃ b ∈ stack, a.scope = b.scope := by
  cases stack with
  | nil => simp [atLine] at h
  | cons top below =>
      rcases List.mem_cons.mp h with rfl | h
      · exact ⟨top, by simp, rfl⟩
      · exact ⟨a, by simp [h], rfl⟩

namespace Interpreter.Housed

variable {i j : Interpreter}

/-- **Scopes stay in use**, whatever runs. -/
theorem of_confines (hi : i.Housed) (h : i.Confines j) : j.Housed where
  globals := Nat.lt_of_lt_of_le hi.globals h.next
  stack a ha := by
    obtain ⟨line, hline⟩ := h.stack
    rw [hline] at ha
    obtain ⟨b, hb, hscope⟩ := scope_of_mem_atLine ha
    rw [hscope]
    exact Nat.lt_of_lt_of_le (hi.stack b hb) h.next

/-- A block runs in a scope that was created. -/
theorem push (hi : i.Housed) {e : Entry} (hscope : ∀ scope, e.scope = some scope → scope = i.currentScope) :
    (i.push e).Housed := by
  have hcurrent : i.currentScope < i.heap.next := by
    unfold Interpreter.currentScope
    split
    · exact hi.globals
    · next top below hstack => exact hi.stack top (by simp [hstack])
  unfold Interpreter.push
  cases hnew : e.scope with
  | some scope =>
      refine ⟨hi.globals, List.forall_mem_cons.mpr ⟨?_, hi.stack⟩⟩
      rw [← hscope scope hnew] at hcurrent
      exact hcurrent
  | none =>
      have hnext : i.heap.create.next = i.heap.next + 1 := Heap.next_create i.heap
      refine ⟨?_, List.forall_mem_cons.mpr ⟨?_, fun a ha => ?_⟩⟩
      · exact Nat.lt_of_lt_of_eq (Nat.lt_succ_of_lt hi.globals) hnext.symm
      · exact Nat.lt_of_lt_of_eq (Nat.lt_succ_self _) hnext.symm
      · exact Nat.lt_of_lt_of_eq (Nat.lt_succ_of_lt (hi.stack a ha)) hnext.symm

end Interpreter.Housed

/-! ### Executions -/

theorem confined_of_turn {p : Piece} {i : Interpreter} {t : Turn} (h : p.turn? i = some t) :
    t.Confined i := by
  cases p with
  | statement s =>
      obtain rfl := Option.some.inj h
      exact confined_statementTurn i s
  | load script kind =>
      obtain rfl := Option.some.inj h
      exact confined_scriptTurn i script kind
  | block body => cases h

namespace Executes

variable {p : Piece} {i : Interpreter} {course : Course} {outcome : Outcome}

/-- **What is executed** is confined to the current scope. -/
theorem confines (h : Executes p i course outcome) : i.Confines outcome.1 := by
  induction h with
  | ended h => exact confined_of_turn h
  | refused h hfull => exact (confined_of_turn h).1
  | entered h hroom hbody ih =>
      obtain ⟨hinto, hscope⟩ := confined_of_turn h
      exact hinto.trans (confines_pop hscope ih).1
  | finished i => exact .refl i
  | failed hs ih => exact (Interpreter.Confines.atLine _ _).trans ih
  | followed hs hrest ihs ihrest => exact ((Interpreter.Confines.atLine _ _).trans ihs).trans ihrest

/-- **In every state of an execution** all scopes in use are there, if they are at its beginning. -/
theorem housed (h : Executes p i course outcome) (hi : i.Housed) : ∀ begun ∈ course, begun.2.Housed := by
  induction h with
  | ended | refused | finished => exact List.forall_mem_singleton.mpr hi
  | entered h hroom hbody ih =>
      obtain ⟨hinto, hscope⟩ := confined_of_turn h
      exact List.forall_mem_cons.mpr ⟨hi, ih ((hi.of_confines hinto).push hscope)⟩
  | failed hs ih => exact List.forall_mem_cons.mpr ⟨hi, ih (hi.of_confines (.atLine _ _))⟩
  | @followed s rest i j course later outcome hs hrest ihs ihrest =>
      have hstart := hi.of_confines (.atLine i s.line)
      have hlater := ihrest (hstart.of_confines hs.confines)
      exact List.forall_mem_cons.mpr ⟨hi, List.forall_mem_append.mpr ⟨ihs hstart, hlater⟩⟩

end Executes

/-! ### Calls -/

/-- A call spares all scopes that are there. -/
theorem spares_call {i : Interpreter} {line : Nat} {name : String} {outcome : Outcome}
    (h : ((Piece.statement (.simple line (.call name))).run i).MayEnd outcome) : i.Spares outcome.1 := by
  have hcall : (Piece.statement (.simple line (.call name))).run i =
      (statementTurn i (.simple line (.call name))).run (enter i.room) := Piece.runWith_eq rfl _
  rw [hcall, statementTurn, actionTurn] at h
  cases hfunction : i.functions.get? name with
  | none =>
      simp only [hfunction] at h
      rw [Run.mayEnd_done.mp h]
      exact ⟨.refl i, rfl, fun _ _ => rfl⟩
  | some f =>
      simp only [hfunction] at h
      have hnew : (Entry.ofCall name line f).scope = none := rfl
      exact (secludes_enter i.room _ i outcome (by simp [hnew]) h).2 hnew

/-- **Calls are isolated.** Whatever a function does, with or without a debugger, and whether it succeeds or
fails: no scope that was there before the call is another one afterwards, among them the globals and the
scopes of all activations. It can only have printed more, taken identities, and defined functions; and made
scopes of its own. -/
theorem calls_are_isolated {i j : Interpreter} {line : Nat} {name : String}
    {result : Except ScriptFault Unit}
    (h : ((Piece.statement (.simple line (.call name))).run i).MayEnd (j, result)) :
    (∀ index < i.heap.next, j.heap.bindings index = i.heap.bindings index) ∧
      (i.Housed → j.Housed ∧ j.globals = i.globals ∧
        ∀ a ∈ i.stack, j.heap.bindings a.scope = i.heap.bindings a.scope) ∧
      j = { i with
        heap := j.heap, functions := j.functions, output := j.output, nextScript := j.nextScript } ∧
      i.output.toList <+: j.output.toList ∧ i.nextScript ≤ j.nextScript := by
  have hspares := spares_call h
  have hconfines := hspares.confines
  refine ⟨hspares.bindings, fun hi => ⟨hi.of_confines hconfines, ?_, fun a ha => ?_⟩, ?_, hconfines.output,
    hconfines.nextScript⟩
  · exact hspares.bindings globalScope hi.globals
  · exact hspares.bindings a.scope (hi.stack a ha)
  · have hstack := hspares.stack
    have hnumber := hconfines.heapNumber
    have hresources := hconfines.resources
    have hfiles := hconfines.files
    cases i
    cases j
    simp_all

/-- An interpreter that knows a function which binds the name of a global. -/
def shadowing : Interpreter :=
  let script : Snapshot := { id := ⟨1⟩, title := "main", source := "", resource := some "main" }
  { heap := (Heap.create {}).set globalScope "a" (.int 1)
    functions := Table.empty.insert "f" { script, body := [.simple 2 (.assign "a" (.literal (.int 2)))] } }

/-- The global is what it was. -/
theorem calls_are_isolated_shadowed :
    shadowing.Housed ∧ ∃ j, ((Piece.statement (.simple 4 (.call "f"))).run shadowing).MayEnd (j, .ok ()) ∧
      j.globals = [("a", .int 1)] ∧ j.heap.bindings 1 = [("a", .int 2)] := by
  have hhoused : shadowing.Housed := ⟨by decide, by simp [shadowing]⟩
  have hends := Run.mayEnd_undisturbed ((Piece.statement (.simple 4 (.call "f"))).run shadowing)
  obtain ⟨-, hscopes, -⟩ := calls_are_isolated hends
  obtain ⟨-, hglobals, -⟩ := hscopes hhoused
  refine ⟨hhoused, _, hends, hglobals, ?_⟩
  rfl

end Pausepoint.Language
