import Pausepoint.Proofs.Language.Seclusion
import Pausepoint.Proofs.Language.Splicing

/-!
# Pausepoint.Proofs.Language.Inlining

Inclusion is inlining.

An included resource runs in the scope of whoever includes it, so that its lines might as well stand where
they are included. The script gets another source by this, in which lines have other numbers, and some of
them run on a stack that is one activation lower; `including_is_inlining` says that nothing else changes.

Proof shape: `Interpreter.Parallels` relates what two runs have to go on with, and `Interpreter.Alongside`
their stacks, of which the second may be lower.

* `parallels_statementTurn` — statements that differ in the numbers of lines do the same on parallel
  interpreters;
* `Completes.parallel` — so does whatever succeeds, by induction on the rules of execution; as stacks are
  balanced, the second one stays alongside;
* `Completes.block_append` — a block is run in two parts, so that a part of it can be replaced, and
  `Completes.inline` replaces an inclusion;
* `undisturbed_load_iff` — what all of this says about the interpreter.
-/

namespace Pausepoint.Language

/-! ### Side by side -/

namespace Interpreter

/-- Two interpreters that go on in the same way: with the same scopes, output and resources, and with the
same functions but for the numbers of lines. -/
structure Parallels (i i' : Interpreter) : Prop where
  resources : i'.resources = i.resources
  files : i'.files = i.files
  heap : i'.heap = i.heap
  output : i'.output = i.output
  functions : ∀ name, (i'.functions.get? name).map (fun f => unnumbered f.body) =
    (i.functions.get? name).map fun f => unnumbered f.body

/-- The second interpreter is in the scope of the first one, on a stack that is no higher. -/
structure Alongside (i i' : Interpreter) : Prop where
  scope : i'.currentScope = i.currentScope
  height : i'.stack.length ≤ i.stack.length
  standing : i.stack ≠ [] → i'.stack ≠ []

variable {i i' i'' j j' : Interpreter}

theorem Parallels.refl (i : Interpreter) : i.Parallels i :=
  ⟨rfl, rfl, rfl, rfl, fun _ => rfl⟩

theorem Parallels.trans (h : i.Parallels i') (h' : i'.Parallels i'') : i.Parallels i'' where
  resources := h'.resources.trans h.resources
  files := h'.files.trans h.files
  heap := h'.heap.trans h.heap
  output := h'.output.trans h.output
  functions name := (h'.functions name).trans (h.functions name)

theorem Alongside.refl (i : Interpreter) : i.Alongside i :=
  ⟨rfl, Nat.le_refl _, id⟩

/-- Variables have the same values. -/
theorem Parallels.lookup (h : i.Parallels i') (hstack : i.Alongside i') : i'.lookup = i.lookup := by
  funext name
  unfold Interpreter.lookup
  rw [h.heap, hstack.scope]

theorem Parallels.load (h : i.Parallels i') (resource : String) : i'.load resource = i.load resource := by
  unfold Interpreter.load
  rw [h.resources, h.files]

/-- A balanced stack stays alongside. -/
theorem Alongside.of_atLine {line line' : Nat} (h : i.Alongside i')
    (hj : j.stack = Language.atLine line i.stack) (hj' : j'.stack = Language.atLine line' i'.stack) :
    j.Alongside j' where
  scope := by
    rw [currentScope_of_atLine hj, currentScope_of_atLine hj', h.scope]
  height := by
    rw [hj, hj', length_atLine, length_atLine]
    exact h.height
  standing hstack := by
    rw [hj, Ne, atLine_eq_nil] at hstack
    rw [hj', Ne, atLine_eq_nil]
    exact h.standing hstack

end Interpreter

/-- What a second turn does if the first one does not fail. -/
inductive Turn.Parallels : Turn → Turn → Prop
  /-- The first one fails. -/
  | failed {i : Interpreter} {fault : ScriptFault} {t : Turn} : Parallels (.ended (i, .error fault)) t
  /-- Both succeed. -/
  | ended {i i' : Interpreter} (h : i.Parallels i') : Parallels (.ended (i, .ok ())) (.ended (i', .ok ()))
  /-- Both enter a block, in the same scope. -/
  | into {e e' : Entry} {i i' : Interpreter} (h : i.Parallels i') (hscope : e'.scope = e.scope)
      (hbody : unnumbered e'.body = unnumbered e.body) : Parallels (.into e i) (.into e' i')

/-- Pieces that differ at most in numbers of lines and identities of scripts. -/
inductive Piece.Parallels : Piece → Piece → Prop
  | statement {s s' : Statement} (h : s'.unnumbered = s.unnumbered) : Parallels (.statement s) (.statement s')
  | load {script script' : Script} {kind : FrameKind} (h : script'.source = script.source) :
      Parallels (.load script kind) (.load script' kind)
  | block {body body' : List Statement} (h : unnumbered body' = unnumbered body) :
      Parallels (.block body) (.block body')

section

variable {i i' : Interpreter}

/-! ### Statements -/

/-- A script with the same source comes down to the same. -/
theorem parallels_scriptTurn (h : i.Parallels i') (hstack : i.Alongside i') {script script' : Script}
    (hsource : script'.source = script.source) (kind : FrameKind) :
    (scriptTurn script kind i).Parallels (scriptTurn script' kind i') := by
  unfold scriptTurn
  rw [hsource]
  cases parse script.source with
  | error fault => exact .failed
  | ok body => exact .into h (congrArg some hstack.scope) rfl

/-- A script that is loaded under a new identity. -/
theorem parallels_loadTurn (h : i.Parallels i') (hstack : i.Alongside i') {script script' : Script}
    (hsource : script'.source = script.source) (kind : FrameKind) :
    (scriptTurn script kind i.takeScriptId.2).Parallels (scriptTurn script' kind i'.takeScriptId.2) := by
  have hnext : i.takeScriptId.2.Parallels i'.takeScriptId.2 := { h with }
  have hstays : i.takeScriptId.2.Alongside i'.takeScriptId.2 := { hstack with }
  exact parallels_scriptTurn hnext hstays hsource kind

theorem parallels_actionTurn (h : i.Parallels i') (hstack : i.Alongside i') (line line' : Nat) (a : Action) :
    (actionTurn line i a).Parallels (actionTurn line' i' a) := by
  -- Both see the same variables and functions and load the same texts, so they make the same turn.
  cases a with
  | assign name e =>
      unfold actionTurn
      dsimp only
      rw [h.lookup hstack]
      cases e.eval i.lookup with
      | error fault => exact .failed
      | ok v => exact .ended { h with heap := by rw [h.heap, hstack.scope] }
  | print e =>
      unfold actionTurn
      dsimp only
      rw [h.lookup hstack]
      cases e.eval i.lookup with
      | error fault => exact .failed
      | ok v => exact .ended { h with output := by rw [h.output] }
  | call name =>
      unfold actionTurn
      dsimp only
      have hsame := h.functions name
      cases hf : i.functions.get? name with
      | none => exact .failed
      | some f =>
          rw [hf, Option.map_some] at hsame
          obtain ⟨f', hf', hbody⟩ := Option.map_eq_some_iff.mp hsame
          rw [hf']
          exact .into h rfl hbody
  | includeResource resource =>
      unfold actionTurn
      dsimp only
      rw [h.load]
      cases i.load resource with
      | none => exact .failed
      | some source =>
          refine parallels_loadTurn h hstack ?_ .included
          rfl
  | eval code =>
      refine parallels_loadTurn h hstack ?_ .dynamic
      rfl

/-- **A statement with other numbers** comes down to the same. -/
theorem parallels_statementTurn (h : i.Parallels i') (hstack : i.Alongside i') {s s' : Statement}
    (hs : s'.unnumbered = s.unnumbered) : (statementTurn i s).Parallels (statementTurn i' s') := by
  cases s with
  | simple line a =>
      cases s' with
      | function line' name body => simp at hs
      | simple line' a' =>
          simp only [Statement.unnumbered_simple, Statement.simple.injEq, true_and] at hs
          subst hs
          exact parallels_actionTurn h hstack line line' a'
  | function line name body =>
      cases s' with
      | simple line' a' => simp at hs
      | function line' name' body' =>
          simp only [Statement.unnumbered_function, Statement.function.injEq, true_and] at hs
          obtain ⟨rfl, hbody⟩ := hs
          unfold statementTurn
          dsimp only
          cases hi : i.stack with
          | nil => exact .failed
          | cons top below =>
              -- A function is only defined by a script, and so there is one on both stacks.
              cases hi' : i'.stack with
              | nil => exact absurd hi' (hstack.standing (by simp [hi]))
              | cons top' below' =>
                  refine .ended { h with functions := fun other => ?_ }
                  simp only [Table.get?_insert]
                  split
                  · exact congrArg some hbody
                  · exact h.functions other

theorem Piece.Parallels.turn {p p' : Piece} (hp : p.Parallels p') (h : i.Parallels i')
    (hstack : i.Alongside i') {t : Turn} (ht : p.turn? i = some t) :
    ∃ t', p'.turn? i' = some t' ∧ t.Parallels t' := by
  cases hp with
  | statement hs =>
      obtain rfl := Option.some.inj ht
      exact ⟨_, rfl, parallels_statementTurn h hstack hs⟩
  | load hsource =>
      obtain rfl := Option.some.inj ht
      exact ⟨_, rfl, parallels_scriptTurn h hstack hsource _⟩
  | block hbody => cases ht

/-! ### Blocks -/

/-- Two blocks are entered in the same scope. -/
theorem parallels_push (h : i.Parallels i') {e e' : Entry} (hscope : e'.scope = e.scope) :
    (i.push e).Parallels (i'.push e') := by
  unfold Interpreter.push
  rw [hscope]
  cases e.scope with
  | some scope => exact { h with }
  | none => exact { h with heap := congrArg Heap.create h.heap }

theorem alongside_push (h : i.Parallels i') (hstack : i.Alongside i') {e e' : Entry}
    (hscope : e'.scope = e.scope) : (i.push e).Alongside (i'.push e') := by
  have hheight := hstack.height
  refine ⟨?_, ?_, fun _ => stack_push_ne_nil i' e'⟩
  · unfold Interpreter.push Interpreter.currentScope
    rw [hscope, h.heap]
    cases e.scope <;> rfl
  · rw [length_push, length_push]
    omega

end

/-- A piece is executed with success. -/
def Completes (p : Piece) (i j : Interpreter) : Prop :=
  ∃ course, Executes p i course (j, .ok ())

namespace Completes

variable {p p' : Piece} {i i' j j' : Interpreter}

theorem balanced (h : Completes p i j) : ∃ line, j.stack = atLine line i.stack := by
  obtain ⟨course, h⟩ := h
  exact h.balanced

theorem confines (h : Completes p i j) : i.Confines j := by
  obtain ⟨course, h⟩ := h
  exact h.confines

/-- Stacks stay alongside. -/
theorem alongside (h : Completes p i j) (h' : Completes p' i' j') (hstack : i.Alongside i') :
    j.Alongside j' := by
  obtain ⟨line, hj⟩ := h.balanced
  obtain ⟨line', hj'⟩ := h'.balanced
  exact hstack.of_atLine hj hj'

end Completes

/-- **What succeeds** also succeeds beside it, with the same to go on with: by induction on the rules. -/
theorem Executes.parallel {p : Piece} {i : Interpreter} {course : Course} {outcome : Outcome}
    (h : Executes p i course outcome) (hok : outcome.2 = .ok ()) {p' : Piece} {i' : Interpreter}
    (hp : p.Parallels p') (hi : i.Parallels i') (hstack : i.Alongside i') :
    ∃ j', Completes p' i' j' ∧ outcome.1.Parallels j' := by
  induction h generalizing p' i' with
  | ended h =>
      obtain ⟨t', ht', ht⟩ := hp.turn hi hstack h
      cases ht with
      | failed => cases hok
      | ended hj => exact ⟨_, ⟨_, .ended ht'⟩, hj⟩
  | refused h hfull => cases hok
  | @entered p i j e course outcome h hroom hbody ih =>
      obtain ⟨t', ht', ht⟩ := hp.turn hi hstack h
      cases ht with
      | @into _ e' _ j' hj hscope hsame =>
          have hkeep : j.stack = i.stack := Piece.on_of_turn h
          have hkeep' : j'.stack = i'.stack := Piece.on_of_turn ht'
          have hbeside : j.Alongside j' := by
            obtain ⟨line, hline⟩ := exists_eq_atLine i.stack
            obtain ⟨line', hline'⟩ := exists_eq_atLine i'.stack
            exact hstack.of_atLine (hkeep.trans hline) (hkeep'.trans hline')
          obtain ⟨k', ⟨course', hblock⟩, hk'⟩ := ih hok (.block hsame) (parallels_push hj hscope)
            (alongside_push hj hbeside hscope)
          -- The second stack is no higher, so there is room for the block on it as well.
          have hroom' : j'.stack.length < maxFrames := Nat.lt_of_le_of_lt hbeside.height hroom
          exact ⟨k'.pop, ⟨_, .entered ht' hroom' hblock⟩, { hk' with }⟩
  | finished i =>
      cases hp with
      | @block _ body' hsame =>
          cases body' with
          | nil => exact ⟨i', ⟨_, .finished i'⟩, hi⟩
          | cons s rest => simp at hsame
  | failed hs ih => cases hok
  | @followed s rest i j course later outcome hs hrest ihs ihrest =>
      cases hp with
      | @block _ body' hsame =>
          cases body' with
          | nil => simp at hsame
          | cons s' rest' =>
              simp only [unnumbered_cons, List.cons.injEq] at hsame
              have hstart : (i.atLine s.line).Parallels (i'.atLine s'.line) := { hi with }
              have hbeside : (i.atLine s.line).Alongside (i'.atLine s'.line) := hstack.of_atLine rfl rfl
              obtain ⟨j', hs', hj'⟩ := ihs rfl (.statement hsame.1) hstart hbeside
              -- Whatever the statement did, both stacks are what they were but for a line.
              have hafter : j.Alongside j' := Completes.alongside ⟨_, hs⟩ hs' hbeside
              obtain ⟨k', hrest', hk'⟩ := ihrest hok (.block hsame.2) hj' hafter
              obtain ⟨_, hs'⟩ := hs'
              obtain ⟨_, hrest'⟩ := hrest'
              exact ⟨k', ⟨_, .followed hs' hrest'⟩, hk'⟩

namespace Completes

variable {p p' : Piece} {i i' j j' k : Interpreter}

theorem parallel (h : Completes p i j) (hp : p.Parallels p') (hi : i.Parallels i')
    (hstack : i.Alongside i') : ∃ j', Completes p' i' j' ∧ j.Parallels j' := by
  obtain ⟨course, h⟩ := h
  exact h.parallel rfl hp hi hstack

/-- An empty block does nothing. -/
theorem block_nil : Completes (.block []) i j ↔ j = i := by
  constructor
  · rintro ⟨course, h⟩
    generalize hout : (j, Except.ok ()) = outcome at h
    cases h with
    | finished => exact (Prod.mk.inj hout).1
    | ended h | refused h | entered h => cases h
  · rintro rfl
    exact ⟨_, .finished j⟩

/-- The first statement of a block, and the others. -/
theorem block_cons {s : Statement} {rest : List Statement} :
    Completes (.block (s :: rest)) i k ↔
      ∃ j, Completes (.statement s) (i.atLine s.line) j ∧ Completes (.block rest) j k := by
  constructor
  · rintro ⟨course, h⟩
    generalize hout : (k, Except.ok ()) = outcome at h
    cases h with
    | failed hs => cases hout
    | followed hs hrest =>
        subst hout
        exact ⟨_, ⟨_, hs⟩, ⟨_, hrest⟩⟩
    | ended h | refused h | entered h => cases h
  · rintro ⟨j, ⟨_, hs⟩, ⟨_, hrest⟩⟩
    exact ⟨_, .followed hs hrest⟩

/-- **A block is run in two parts.** -/
theorem block_append {front back : List Statement} :
    Completes (.block (front ++ back)) i k ↔
      ∃ j, Completes (.block front) i j ∧ Completes (.block back) j k := by
  induction front generalizing i with
  | nil => simp [block_nil]
  | cons s front ih =>
      simp only [List.cons_append, block_cons, ih]
      constructor
      · rintro ⟨first, hs, middle, hfront, hback⟩
        exact ⟨middle, ⟨first, hs, hfront⟩, hback⟩
      · rintro ⟨middle, ⟨first, hs, hfront⟩, hback⟩
        exact ⟨first, hs, middle, hfront, hback⟩

/-- What is over at once has succeeded if it did not fail. -/
theorem of_ended {outcome : Outcome} (hturn : p.turn? i = some (.ended outcome)) :
    Completes p i k ↔ outcome = (k, .ok ()) := by
  constructor
  · rintro ⟨course, h⟩
    generalize hlast : (k, Except.ok ()) = last at h
    cases h with
    | ended h =>
        rw [hturn] at h
        cases h
        rfl
    | refused h | entered h =>
        rw [hturn] at h
        cases h
    | finished | failed | followed => cases hturn
  · rintro rfl
    exact ⟨_, .ended hturn⟩

/-- What enters a block succeeds if there is room for it and the block does. -/
theorem of_into {e : Entry} (hturn : p.turn? i = some (.into e j)) :
    Completes p i k ↔ j.stack.length < maxFrames ∧
      ∃ last, Completes (.block e.body) (j.push e) last ∧ k = last.pop := by
  constructor
  · rintro ⟨course, h⟩
    generalize hout : (k, Except.ok ()) = outcome at h
    cases h with
    | ended h =>
        rw [hturn] at h
        cases h
    | refused h => cases hout
    | @entered _ _ _ _ _ outcome h hroom hbody =>
        rw [hturn] at h
        cases h
        obtain ⟨rfl, hok⟩ := Prod.mk.inj hout
        obtain ⟨last, result⟩ := outcome
        subst hok
        exact ⟨hroom, last, ⟨_, hbody⟩, rfl⟩
    | finished | failed | followed => cases hturn
  · rintro ⟨hroom, last, ⟨course, hbody⟩, rfl⟩
    exact ⟨_, .entered hturn hroom hbody⟩

end Completes

/-! ### Scripts -/

section

variable {script script' : Script} {kind : FrameKind} {i j k : Interpreter}

/-- A script is loaded with success if it can be parsed, there is room for it, and its statements succeed. -/
theorem completes_load : Completes (.load script kind) i k ↔
    ∃ body, parse script.source = .ok body ∧ i.stack.length < maxFrames ∧
      ∃ last, Completes (.block body) (i.push (.ofScript script.snapshot kind i.currentScope body)) last ∧
        k = last.pop := by
  cases hbody : parse script.source with
  | ok body =>
      have hturn : (Piece.load script kind).turn? i =
          some (.into (.ofScript script.snapshot kind i.currentScope body) i) := by
        rw [Piece.turn?, scriptTurn, hbody]
      rw [Completes.of_into hturn]
      simp [Entry.ofScript]
  | error fault =>
      have hturn : (Piece.load script kind).turn? i =
          some (.ended (i, .error (.parse script.title fault.1 fault.2))) := by
        rw [Piece.turn?, scriptTurn, hbody]
      rw [Completes.of_ended hturn]
      simp

/-- **The interpreter succeeds** exactly if the rules do. -/
theorem undisturbed_load_iff :
    ((Piece.load script kind).run i).undisturbed = (j, .ok ()) ↔ Completes (.load script kind) i j := by
  by_cases hroom : i.stack.length < maxFrames
  · obtain ⟨course, h⟩ := exists_executes (.load script kind) (Nat.le_of_lt hroom)
    constructor
    · intro hok
      rw [hok] at h
      exact ⟨course, h⟩
    · rintro ⟨course', h'⟩
      exact (h.unique h').2.symm
  · -- The stack is full, so that nothing can be loaded.
    have hfull : i.room = 0 := by
      rw [Interpreter.room]
      omega
    constructor
    · intro hok
      rw [Piece.run, hfull, Piece.runWith, loadScript] at hok
      split at hok <;> cases hok
    · intro h
      obtain ⟨body, -, hless, -⟩ := completes_load.mp h
      exact absurd hless hroom

/-- A run that succeeds has loaded its script. -/
theorem exists_completes_of_run (h : (i.run script).undisturbed.2 = .ok ()) :
    ∃ last, Completes (.load script .call) i last := by
  rw [undisturbed_run] at h
  exact ⟨_, undisturbed_load_iff.mp (Prod.ext rfl h)⟩

/-- **A script that is loaded with success** is all of a run. -/
theorem Completes.undisturbed_run (h : Completes (.load script .call) i j) :
    (i.run script).undisturbed = ({ j with stack := [] }, .ok ()) := by
  rw [Language.undisturbed_run, undisturbed_load_iff.mpr h]

end

/-! ### Inlining -/

/-- A block that is entered does not change what can be loaded. -/
theorem load_push (i : Interpreter) (e : Entry) (resource : String) :
    (i.push e).load resource = i.load resource := by
  obtain ⟨-, hresources, hfiles, -⟩ := push_frame i e
  rw [Interpreter.load, Interpreter.load, hresources, hfiles]

section

variable {i i' : Interpreter} {e : Entry}

/-- A block that is entered in the current scope has the same to go on with as before it is entered. -/
theorem parallels_of_push (hscope : e.scope = some i.currentScope) (h : i.Parallels i') :
    (i.push e).Parallels i' := by
  unfold Interpreter.push
  rw [hscope]
  exact { h with }

/-- It runs on a stack that is one activation higher. -/
theorem alongside_of_push (hscope : e.scope = some i.currentScope) (h : i.Alongside i')
    (hstack : i.stack ≠ []) : (i.push e).Alongside i' where
  scope := by
    unfold Interpreter.push
    rw [hscope, h.scope]
    rfl
  height := by
    rw [length_push]
    exact Nat.le_succ_of_le h.height
  standing _ := h.standing hstack

end

section

variable {i k : Interpreter} {front inner back : List Statement} {line : Nat} {resource included : String}

/-- **An inclusion** enters the statements of the resource, in the current scope. -/
theorem turn_include (line : Nat) (hload : i.load resource = some included)
    (hinner : parse included = .ok inner) :
    ∃ e : Entry, (Piece.statement (.simple line (.includeResource resource))).turn? i =
      some (.into e i.takeScriptId.2) ∧ e.scope = some i.currentScope ∧ e.body = inner := by
  let script : Script := { id := i.takeScriptId.1, source := included, resource := some resource }
  refine ⟨.ofScript script.snapshot .included i.currentScope inner, ?_, rfl, rfl⟩
  have hparsed : parse script.source = .ok inner := hinner
  rw [Piece.turn?, statementTurn, actionTurn, hload]
  dsimp only
  rw [scriptTurn, hparsed]
  rfl

/-- **An inclusion in a block** can be replaced by the statements of the resource. -/
theorem Completes.inline (hload : i.load resource = some included) (hinner : parse included = .ok inner)
    (hstack : i.stack ≠ [])
    (h : Completes (.block (front ++ .simple line (.includeResource resource) :: back)) i k) :
    ∃ k', Completes (.block (front ++ inner ++ back)) i k' ∧ k.Parallels k' := by
  obtain ⟨j, hfront, h⟩ := block_append.mp h
  obtain ⟨m, hline, hback⟩ := block_cons.mp h
  have hstays : (j.atLine line).stack ≠ [] := by
    obtain ⟨before, hbefore⟩ := hfront.balanced
    simpa [hbefore] using hstack
  have hloaded : (j.atLine line).load resource = some included := by
    rw [(hfront.confines.trans (.atLine j line)).load, hload]
  obtain ⟨e, hturn, hscope, rfl⟩ := turn_include line hloaded hinner
  obtain ⟨-, last, hincluded, rfl⟩ := (of_into hturn).mp hline
  have hstart : (j.atLine line).Alongside j := by
    obtain ⟨number, hnumber⟩ := exists_eq_atLine j.stack
    exact (Interpreter.Alongside.refl j).of_atLine rfl hnumber
  -- The resource ran on an activation of its own; beside it, it runs on that of the block.
  have hsame : (j.atLine line).takeScriptId.2.Parallels j := ⟨rfl, rfl, rfl, rfl, fun _ => rfl⟩
  have hbeside : (j.atLine line).takeScriptId.2.Alongside j := { hstart with }
  obtain ⟨j', hinlined, hj'⟩ := hincluded.parallel (.block rfl) (parallels_of_push hscope hsame)
    (alongside_of_push hscope hbeside hstays)
  -- Either way the block goes on where it was.
  have hleft : last.pop.Parallels j' := { hj' with }
  have hafter : last.pop.Alongside j' := hline.alongside hinlined hstart
  obtain ⟨k', hrest, hk'⟩ := hback.parallel (.block rfl) hleft hafter
  exact ⟨k', block_append.mpr ⟨j', block_append.mpr ⟨j, hfront, hinlined⟩, hrest⟩, hk'⟩

end

section

variable {i k : Interpreter} {script script' : Script} {kind : FrameKind} {body inner : List Statement}
  {line : Nat} {resource included : String}

/-- A block that is entered may have other numbers of lines. -/
theorem Completes.renumber {body' : List Statement} {e : Entry} (h : Completes (.block body) (i.push e) k)
    (e' : Entry) (hsame : unnumbered body' = unnumbered body) (hscope : e'.scope = e.scope) :
    ∃ k', Completes (.block body') (i.push e') k' ∧ k.Parallels k' :=
  h.parallel (.block hsame) (parallels_push (.refl i) hscope) (alongside_push (.refl i) (.refl i) hscope)

/-- **An inclusion in a script** can be replaced by the lines of the resource. -/
theorem Completes.inline_load (hbody : parse script.source = .ok body)
    (hline : .simple line (.includeResource resource) ∈ body) (hload : i.load resource = some included)
    (hinner : parse included = .ok inner) (htext : Splices line included script.source script'.source)
    (h : Completes (.load script kind) i k) : ∃ k', Completes (.load script' kind) i k' ∧ k.Parallels k' := by
  obtain ⟨front, back, body', rfl, hbody', hsame⟩ := htext.exists_parse hbody hline hinner
  obtain ⟨parsed, hparsed, hroom, last, hlast, rfl⟩ := completes_load.mp h
  obtain rfl := Except.ok.inj (hbody.symm.trans hparsed)
  have hloaded (e : Entry) : (i.push e).load resource = some included := by
    rw [load_push, hload]
  obtain ⟨k', hinlined, hk'⟩ := hlast.inline (hloaded _) hinner (stack_push_ne_nil i _)
  let e' : Entry := .ofScript script'.snapshot kind i.currentScope body'
  obtain ⟨k'', hrenumbered, hk''⟩ := hinlined.renumber e' hsame rfl
  exact ⟨k''.pop, completes_load.mpr ⟨body', hbody', hroom, k'', hrenumbered, rfl⟩, { hk'.trans hk'' with }⟩

/-- **Including is inlining.** If a script succeeds without a debugger, so does every script that has the
lines of an included resource in place of the line that includes it: with the same output, the same globals,
and the same functions, whose bodies differ at most in the numbers of their lines. -/
theorem including_is_inlining (i : Interpreter) (hbody : parse script.source = .ok body)
    (hline : .simple line (.includeResource resource) ∈ body) (hload : i.load resource = some included)
    (hinner : parse included = .ok inner) (htext : Splices line included script.source script'.source)
    (hok : (i.run script).undisturbed.2 = .ok ()) :
    (i.run script').undisturbed.2 = .ok () ∧
      (i.run script').undisturbed.1.output = (i.run script).undisturbed.1.output ∧
      (i.run script').undisturbed.1.globals = (i.run script).undisturbed.1.globals ∧
      ∀ name, ((i.run script').undisturbed.1.functions.get? name).map (fun f => unnumbered f.body) =
        ((i.run script).undisturbed.1.functions.get? name).map fun f => unnumbered f.body := by
  obtain ⟨last, hlast⟩ := exists_completes_of_run hok
  obtain ⟨last', hlast', hsame⟩ := hlast.inline_load hbody hline hload hinner htext
  rw [hlast.undisturbed_run, hlast'.undisturbed_run]
  exact ⟨rfl, hsame.output, congrArg (·.bindings globalScope) hsame.heap, hsame.functions⟩

end

/-- A script that calls a function of a resource. -/
def lending : Script :=
  { id := ⟨1⟩, source := "include lib\ncall f" }

/-- The source of the resource. -/
def lent : String :=
  "# names\nlet a = 1\nfn f\n  print a\nend"

/-- An interpreter that has the resource. -/
def library : Interpreter :=
  { resources := Table.empty.insert "lib" lent }

/-- The script with the lines of the resource. -/
def inlined : Script :=
  { lending with source := splice 1 lent lending.source }

/-- What succeeds has a result. -/
theorem exists_of_isOk {ε α : Type} {r : Except ε α} (h : r.isOk = true) : ∃ a, r = .ok a := by
  cases r with
  | ok a => exact ⟨a, rfl⟩
  | error e => cases h

/-- The function is called there as well. -/
theorem including_is_inlining_lending :
    ∃ body inner, parse lending.source = .ok body ∧ .simple 1 (.includeResource "lib") ∈ body ∧
      library.load "lib" = some lent ∧ parse lent = .ok inner ∧ Splices 1 lent lending.source inlined.source ∧
      (library.run lending).undisturbed.2 = .ok () ∧ (library.run inlined).undisturbed.2 = .ok () ∧
      (library.run inlined).undisturbed.1.output = #["1"] := by
  have hbody : parse lending.source = .ok [.simple 1 (.includeResource "lib"), .simple 2 (.call "f")] := by rfl
  have hload : library.load "lib" = some lent := by decide +kernel
  obtain ⟨inner, hinner⟩ : ∃ inner, parse lent = .ok inner := exists_of_isOk (by decide +kernel)
  have htext : Splices 1 lent lending.source inlined.source := splices_splice 1 lent lending.source
  obtain ⟨done, hok⟩ : ∃ done, (library.run lending).undisturbed.2 = .ok done :=
    exists_of_isOk (by decide +kernel)
  have hprints : (library.run lending).undisturbed.1.output = #["1"] := by decide +kernel
  obtain ⟨hsucceeds, houtput, -⟩ := including_is_inlining library hbody List.mem_cons_self hload hinner htext hok
  exact ⟨_, inner, hbody, List.mem_cons_self, hload, hinner, htext, hok, hsucceeds, houtput.trans hprints⟩

end Pausepoint.Language
