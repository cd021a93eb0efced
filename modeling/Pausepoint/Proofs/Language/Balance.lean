import Pausepoint.Proofs.Language.Sites

/-!
# Pausepoint.Proofs.Language.Balance

Every script ends, and leaves the stack as it found it.

What a piece of a script does without a debugger can be said without any bound on its steps: by rules that
execute a statement, a script or a block in terms of the statements of the block it enters
(`Executes`). The rules follow functions that are redefined while they run, resources that include each
other in circles, and code that is made up on the way; nothing but the limit on the stack keeps them from
going on for ever. `Executes` also keeps the course of an execution: all that was begun, and in which state.

* `Turn` — what a statement or a script comes down to: an outcome, or a block to enter;
* `Executes` — the rules; they have at most one result (`Executes.unique`);
* `exists_executes` — and always one, which is that of the interpreter: by induction on the room that is
  left on the stack, and on the statements that are left in a block;
* `Executes.balanced`, `Executes.bounded`, `Executes.overflow_iff` — what a whole execution does to the
  stack, by induction on its rules;
* `execution_is_total` — all of it together.
-/

namespace Pausepoint.Language

/-! ### Stacks -/

/-- A stack with its innermost activation at another line. -/
def atLine (line : Nat) : List Activation → List Activation
  | [] => []
  | top :: below => { top with line } :: below

@[simp] theorem atLine_atLine (line other : Nat) (stack : List Activation) :
    atLine line (atLine other stack) = atLine line stack := by
  cases stack <;> rfl

@[simp] theorem length_atLine (line : Nat) (stack : List Activation) :
    (atLine line stack).length = stack.length := by
  cases stack <;> rfl

@[simp] theorem atLine_eq_nil {line : Nat} {stack : List Activation} : atLine line stack = [] ↔ stack = [] := by
  cases stack <;> simp [atLine]

/-- To be at the line where it is anyway changes nothing. -/
theorem exists_eq_atLine (stack : List Activation) : ∃ line, stack = atLine line stack := by
  cases stack with
  | nil => exact ⟨0, rfl⟩
  | cons top below => exact ⟨top.line, rfl⟩

/-- An interpreter whose innermost activation is at a line. -/
def Interpreter.atLine (i : Interpreter) (line : Nat) : Interpreter :=
  { i with stack := Language.atLine line i.stack }

@[simp] theorem Interpreter.stack_atLine (i : Interpreter) (line : Nat) :
    (i.atLine line).stack = Language.atLine line i.stack := rfl

/-! ### Turns -/

/-- What a statement or a script comes down to. -/
inductive Turn
  /-- It is over. -/
  | ended (outcome : Outcome)
  /-- A block is to be entered. -/
  | into (e : Entry) (i : Interpreter)

/-- Takes a turn, given how to enter a block. -/
def Turn.run (enter : Entry → Interpreter → Run Outcome) : Turn → Run Outcome
  | .ended outcome => .done outcome
  | .into e i => enter e i

/-- A script is entered if it can be parsed. -/
def scriptTurn (script : Script) (kind : FrameKind) (i : Interpreter) : Turn :=
  match parse script.source with
  | .error (line, fault) => .ended (i, .error (.parse script.title line fault))
  | .ok body => .into (.ofScript script.snapshot kind i.currentScope body) i

/-- What a single line comes down to. -/
def actionTurn (line : Nat) (i : Interpreter) : Action → Turn
  | .assign name e =>
      match e.eval i.lookup with
      | .error fault => .ended (i, .error (.evaluation line fault))
      | .ok v => .ended ({ i with heap := i.heap.set i.currentScope name v }, .ok ())
  | .print e =>
      match e.eval i.lookup with
      | .error fault => .ended (i, .error (.evaluation line fault))
      | .ok v => .ended ({ i with output := i.output.push v.display }, .ok ())
  | .call name =>
      match i.functions.get? name with
      | none => .ended (i, .error (.unknownFunction line name))
      | some f => .into (.ofCall name line f) i
  | .includeResource resource =>
      match i.load resource with
      | none => .ended (i, .error (.unknownResource resource))
      | some source =>
          scriptTurn { id := i.takeScriptId.1, source, resource := some resource } .included i.takeScriptId.2
  | .eval code =>
      scriptTurn { id := i.takeScriptId.1, source := code, givenTitle := some "eval" } .dynamic
        i.takeScriptId.2

/-- What a statement comes down to. -/
def statementTurn (i : Interpreter) : Statement → Turn
  | .simple line a => actionTurn line i a
  | .function line name body =>
      match i.stack with
      | [] => .ended (i, .error (.misplacedFunction line))
      | top :: _ => .ended ({ i with functions := i.functions.insert name ⟨top.script, body⟩ }, .ok ())

section

variable (enter : Entry → Interpreter → Run Outcome) (i : Interpreter)

theorem loadScript_eq (script : Script) (kind : FrameKind) :
    loadScript enter script kind i = (scriptTurn script kind i).run enter := by
  unfold loadScript scriptTurn
  cases parse script.source <;> rfl

theorem runAction_eq (line : Nat) (a : Action) :
    runAction enter line i a = (actionTurn line i a).run enter := by
  cases a with
  | assign name e =>
      unfold runAction actionTurn
      dsimp only
      cases e.eval i.lookup <;> rfl
  | print e =>
      unfold runAction actionTurn
      dsimp only
      cases e.eval i.lookup <;> rfl
  | call name =>
      unfold runAction actionTurn
      dsimp only
      cases i.functions.get? name <;> rfl
  | includeResource resource =>
      unfold runAction actionTurn
      dsimp only
      cases i.load resource with
      | none => rfl
      | some source => exact loadScript_eq enter i.takeScriptId.2 _ _
  | eval code => exact loadScript_eq enter i.takeScriptId.2 _ _

/-- **A statement does what its turn says.** -/
theorem runStatement_eq (s : Statement) : runStatement enter i s = (statementTurn i s).run enter := by
  cases s with
  | simple line a => exact runAction_eq enter i line a
  | function line name body =>
      unfold runStatement statementTurn
      dsimp only
      cases i.stack <;> rfl

end

/-- A turn that ends something, or enters a block, on the given stack; by itself it overflows no stack. -/
def Turn.On (stack : List Activation) : Turn → Prop
  | .ended outcome => outcome.1.stack = stack ∧ ∀ line, outcome.2 ≠ .error (.stackOverflow line)
  | .into _ i => i.stack = stack

theorem on_scriptTurn (script : Script) (kind : FrameKind) (i : Interpreter) :
    (scriptTurn script kind i).On i.stack := by
  unfold scriptTurn
  split
  · exact ⟨rfl, by simp⟩
  · rfl

theorem on_actionTurn (line : Nat) (i : Interpreter) (a : Action) : (actionTurn line i a).On i.stack := by
  cases a with
  | assign name e =>
      unfold actionTurn
      dsimp only
      split <;> exact ⟨rfl, by simp⟩
  | print e =>
      unfold actionTurn
      dsimp only
      split <;> exact ⟨rfl, by simp⟩
  | call name =>
      unfold actionTurn
      dsimp only
      split
      · exact ⟨rfl, by simp⟩
      · rfl
  | includeResource resource =>
      unfold actionTurn
      dsimp only
      split
      · exact ⟨rfl, by simp⟩
      · exact on_scriptTurn _ _ i.takeScriptId.2
  | eval code => exact on_scriptTurn _ _ i.takeScriptId.2

theorem on_statementTurn (i : Interpreter) (s : Statement) : (statementTurn i s).On i.stack := by
  cases s with
  | simple line a => exact on_actionTurn line i a
  | function line name body =>
      unfold statementTurn
      dsimp only
      split <;> exact ⟨rfl, by simp⟩

/-! ### Pieces of scripts -/

/-- What can be executed. -/
inductive Piece
  | statement (s : Statement)
  | load (script : Script) (kind : FrameKind)
  /-- The statements that are left in a block. -/
  | block (body : List Statement)

namespace Piece

/-- What a statement or a script comes down to; a block is taken apart. -/
def turn? (i : Interpreter) : Piece → Option Turn
  | .statement s => some (statementTurn i s)
  | .load script kind => some (scriptTurn script kind i)
  | .block _ => none

/-- The run of a piece, given how to enter a block. -/
def runWith (enter : Entry → Interpreter → Run Outcome) (i : Interpreter) : Piece → Run Outcome
  | .statement s => runStatement enter i s
  | .load script kind => loadScript enter script kind i
  | .block body => runBlock enter body i

/-- The run of a piece, with the room that is left on the stack. -/
def run (i : Interpreter) (p : Piece) : Run Outcome :=
  p.runWith (enter i.room) i

/-- Is a block entered, if there is room for it? It is by the call of a function that is known, by the
inclusion of a resource that can be read and parsed, by the evaluation of code that can be parsed, and by
a script that can be parsed. -/
def Enters (i : Interpreter) : Piece → Prop
  | .statement (.simple _ (.call name)) => ∃ f, i.functions.get? name = some f
  | .statement (.simple _ (.includeResource resource)) =>
      ∃ source body, i.load resource = some source ∧ parse source = .ok body
  | .statement (.simple _ (.eval code)) => ∃ body, parse code = .ok body
  | .statement (.simple _ (.assign ..)) | .statement (.simple _ (.print _)) | .statement (.function ..)
  | .block _ => False
  | .load script _ => ∃ body, parse script.source = .ok body

theorem on_of_turn {i : Interpreter} {p : Piece} {t : Turn} (h : p.turn? i = some t) : t.On i.stack := by
  cases p with
  | statement s =>
      obtain rfl := Option.some.inj h
      exact on_statementTurn i s
  | load script kind =>
      obtain rfl := Option.some.inj h
      exact on_scriptTurn script kind i
  | block body => cases h

theorem runWith_eq {i : Interpreter} {p : Piece} {t : Turn} (h : p.turn? i = some t)
    (enter : Entry → Interpreter → Run Outcome) : p.runWith enter i = t.run enter := by
  cases p with
  | statement s =>
      obtain rfl := Option.some.inj h
      exact runStatement_eq enter i s
  | load script kind =>
      obtain rfl := Option.some.inj h
      exact loadScript_eq enter i script kind
  | block body => cases h

theorem exists_scriptTurn {script : Script} {kind : FrameKind} {i : Interpreter} :
    (∃ e j, scriptTurn script kind i = .into e j) ↔ ∃ body, parse script.source = .ok body := by
  unfold scriptTurn
  cases parse script.source <;> simp

/-- **A block is entered** exactly in these cases. -/
theorem enters_iff {i : Interpreter} {p : Piece} :
    p.Enters i ↔ ∃ e j, p.turn? i = some (.into e j) := by
  cases p with
  | block body => simp [Enters, turn?]
  | load script kind => simp [Enters, turn?, exists_scriptTurn]
  | statement s =>
      cases s with
      | function line name body =>
          simp only [Enters, turn?, statementTurn]
          cases i.stack <;> simp
      | simple line a =>
          cases a with
          | assign name e =>
              simp only [Enters, turn?, statementTurn, actionTurn]
              cases e.eval i.lookup <;> simp
          | print e =>
              simp only [Enters, turn?, statementTurn, actionTurn]
              cases e.eval i.lookup <;> simp
          | call name =>
              simp only [Enters, turn?, statementTurn, actionTurn]
              cases i.functions.get? name <;> simp
          | includeResource resource =>
              simp only [Enters, turn?, statementTurn, actionTurn]
              cases i.load resource with
              | none => simp
              | some source => simp [exists_scriptTurn]
          | eval code => simp [Enters, turn?, statementTurn, actionTurn, exists_scriptTurn]

end Piece

/-! ### Executions -/

theorem length_push (i : Interpreter) (e : Entry) : (i.push e).stack.length = i.stack.length + 1 := by
  obtain ⟨top, htop, -⟩ := exists_top_push i e
  rw [htop, List.length_cons]

theorem stack_push_ne_nil (i : Interpreter) (e : Entry) : (i.push e).stack ≠ [] := by
  obtain ⟨top, htop, -⟩ := exists_top_push i e
  simp [htop]

/-- All that was begun, in order, and in which state. -/
abbrev Course := List (Piece × Interpreter)

namespace Course

/-- Something would enter a block, on a full stack whose innermost activation is at a line. -/
def Overflows (line : Nat) (course : Course) : Prop :=
  ∃ p i, (p, i) ∈ course ∧ p.Enters i ∧ i.stack.length = maxFrames ∧ i.currentLine = line

theorem overflows_cons {line : Nat} {p : Piece} {i : Interpreter} {course : Course} :
    Overflows line ((p, i) :: course) ↔
      (p.Enters i ∧ i.stack.length = maxFrames ∧ i.currentLine = line) ∨ Overflows line course := by
  constructor
  · rintro ⟨q, j, hmem, hover⟩
    rcases List.mem_cons.mp hmem with hmem | hmem
    · cases hmem
      exact .inl hover
    · exact .inr ⟨q, j, hmem, hover⟩
  · rintro (hover | ⟨q, j, hmem, hover⟩)
    · exact ⟨p, i, List.mem_cons_self, hover⟩
    · exact ⟨q, j, List.mem_cons_of_mem _ hmem, hover⟩

theorem overflows_append {line : Nat} {course later : Course} :
    Overflows line (course ++ later) ↔ Overflows line course ∨ Overflows line later := by
  simp only [Overflows, List.mem_append, or_and_right, exists_or]

theorem not_overflows_nil {line : Nat} : ¬ Overflows line [] := by
  rintro ⟨q, j, hmem, -⟩
  cases hmem

end Course

/-- What a piece does without a debugger. -/
inductive Executes : Piece → Interpreter → Course → Outcome → Prop
  /-- It is over at once. -/
  | ended {p : Piece} {i : Interpreter} {outcome : Outcome} (h : p.turn? i = some (.ended outcome)) :
      Executes p i [(p, i)] outcome
  /-- It would enter a block, and the stack is full. -/
  | refused {p : Piece} {i j : Interpreter} {e : Entry} (h : p.turn? i = some (.into e j))
      (hfull : maxFrames ≤ j.stack.length) :
      Executes p i [(p, i)] (j, .error (.stackOverflow j.currentLine))
  /-- It enters a block, and leaves it. -/
  | entered {p : Piece} {i j : Interpreter} {e : Entry} {course : Course} {outcome : Outcome}
      (h : p.turn? i = some (.into e j)) (hroom : j.stack.length < maxFrames)
      (hbody : Executes (.block e.body) (j.push e) course outcome) :
      Executes p i ((p, i) :: course) (outcome.1.pop, outcome.2)
  /-- The block is at its end. -/
  | finished (i : Interpreter) : Executes (.block []) i [(.block [], i)] (i, .ok ())
  /-- A statement of the block fails, and the others are not executed. -/
  | failed {s : Statement} {rest : List Statement} {i j : Interpreter} {course : Course}
      {fault : ScriptFault}
      (hs : Executes (.statement s) (i.atLine s.line) course (j, .error fault)) :
      Executes (.block (s :: rest)) i ((.block (s :: rest), i) :: course) (j, .error fault)
  /-- A statement of the block succeeds, and the others follow. -/
  | followed {s : Statement} {rest : List Statement} {i j : Interpreter} {course later : Course}
      {outcome : Outcome} (hs : Executes (.statement s) (i.atLine s.line) course (j, .ok ()))
      (hrest : Executes (.block rest) j later outcome) :
      Executes (.block (s :: rest)) i ((.block (s :: rest), i) :: (course ++ later)) outcome

namespace Executes

variable {p : Piece} {i : Interpreter} {course : Course} {outcome : Outcome}

/-- A course starts with the piece itself. -/
theorem mem_course (h : Executes p i course outcome) : (p, i) ∈ course := by
  cases h <;> exact List.mem_cons_self

/-- Inside an execution, scripts are loaded by statements that include a resource or evaluate code. -/
theorem eq_of_load_mem (h : Executes p i course outcome) {script : Script} {kind : FrameKind}
    {j : Interpreter} (hmem : (.load script kind, j) ∈ course) : p = .load script kind ∧ i = j := by
  induction h with
  | ended | refused =>
      cases List.mem_singleton.mp hmem
      exact ⟨rfl, rfl⟩
  | entered h hroom hbody ih =>
      rcases List.mem_cons.mp hmem with hmem | hmem
      · cases hmem
        exact ⟨rfl, rfl⟩
      · cases (ih hmem).1
  | finished => cases List.mem_singleton.mp hmem
  | failed hs ih =>
      rcases List.mem_cons.mp hmem with hmem | hmem
      · cases hmem
      · cases (ih hmem).1
  | followed hs hrest ihs ihrest =>
      rcases List.mem_cons.mp hmem with hmem | hmem
      · cases hmem
      · rcases List.mem_append.mp hmem with hmem | hmem
        · cases (ihs hmem).1
        · cases (ihrest hmem).1

/-- **The rules have at most one result.** -/
theorem unique (h : Executes p i course outcome) :
    ∀ {course' : Course} {outcome' : Outcome}, Executes p i course' outcome' →
      course' = course ∧ outcome' = outcome := by
  induction h with
  | ended h =>
      -- The rules exclude each other, by what comes of the turn and by whether there is room for an
      -- activation.
      intro course' outcome' h'
      cases h' with
      | ended h' =>
          rw [h] at h'
          cases h'
          exact ⟨rfl, rfl⟩
      | refused h' | entered h' =>
          rw [h] at h'
          cases h'
      | finished | failed | followed => cases h
  | refused h hfull =>
      intro course' outcome' h'
      cases h' with
      | ended h' =>
          rw [h] at h'
          cases h'
      | refused h' =>
          rw [h] at h'
          cases h'
          exact ⟨rfl, rfl⟩
      | entered h' hroom =>
          rw [h] at h'
          cases h'
          omega
      | finished | failed | followed => cases h
  | entered h hroom hbody ih =>
      intro course' outcome' h'
      cases h' with
      | ended h' =>
          rw [h] at h'
          cases h'
      | refused h' hfull =>
          rw [h] at h'
          cases h'
          omega
      | entered h' _ hbody' =>
          rw [h] at h'
          cases h'
          obtain ⟨rfl, rfl⟩ := ih hbody'
          exact ⟨rfl, rfl⟩
      | finished | failed | followed => cases h
  | finished i =>
      intro course' outcome' h'
      cases h' with
      | finished => exact ⟨rfl, rfl⟩
      | ended h' | refused h' | entered h' => cases h'
  | failed hs ih =>
      intro course' outcome' h'
      cases h' with
      | failed hs' =>
          obtain ⟨rfl, hsame⟩ := ih hs'
          cases hsame
          exact ⟨rfl, rfl⟩
      | followed hs' => cases (ih hs').2
      | ended h' | refused h' | entered h' => cases h'
  | followed hs hrest ihs ihrest =>
      intro course' outcome' h'
      cases h' with
      | failed hs' => cases (ihs hs').2
      | followed hs' hrest' =>
          obtain ⟨rfl, hsame⟩ := ihs hs'
          cases hsame
          obtain ⟨rfl, rfl⟩ := ihrest hrest'
          exact ⟨rfl, rfl⟩
      | ended h' | refused h' | entered h' => cases h'

/-- **The stack is balanced**: whatever was executed, and however it ended, nothing but the line of the
innermost activation is another one. -/
theorem balanced (h : Executes p i course outcome) : ∃ line, outcome.1.stack = atLine line i.stack := by
  induction h with
  | ended h =>
      rw [(Piece.on_of_turn h).1]
      exact exists_eq_atLine _
  | refused h hfull =>
      rw [show _ = _ from Piece.on_of_turn h]
      exact exists_eq_atLine _
  | @entered p i j e course outcome h hroom hbody ih =>
      obtain ⟨line, hline⟩ := ih
      have hsame : j.stack = i.stack := Piece.on_of_turn h
      obtain ⟨top, htop, -⟩ := exists_top_push j e
      have hpop : outcome.1.pop.stack = i.stack := by
        rw [Interpreter.pop, hline, htop, ← hsame]
        rfl
      rw [hpop]
      exact exists_eq_atLine _
  | finished i => exact exists_eq_atLine _
  | failed hs ih =>
      obtain ⟨line, hline⟩ := ih
      exact ⟨line, by rw [hline, Interpreter.stack_atLine, atLine_atLine]⟩
  | followed hs hrest ihs ihrest =>
      obtain ⟨line, hline⟩ := ihrest
      obtain ⟨between, hbetween⟩ := ihs
      exact ⟨line, by rw [hline, hbetween, Interpreter.stack_atLine, atLine_atLine, atLine_atLine]⟩

theorem length_balanced (h : Executes p i course outcome) :
    outcome.1.stack.length = i.stack.length := by
  obtain ⟨line, hline⟩ := h.balanced
  rw [hline, length_atLine]

/-- **The stack is never higher than allowed.** -/
theorem bounded (h : Executes p i course outcome) (hi : i.stack.length ≤ maxFrames) :
    ∀ begun ∈ course, begun.2.stack.length ≤ maxFrames := by
  induction h with
  | ended | refused | finished => exact List.forall_mem_singleton.mpr hi
  | @entered p i j e course outcome h hroom hbody ih =>
      exact List.forall_mem_cons.mpr ⟨hi, ih (by rw [length_push]; omega)⟩
  | @failed s rest i j course fault hs ih =>
      exact List.forall_mem_cons.mpr ⟨hi, ih (by rwa [Interpreter.stack_atLine, length_atLine])⟩
  | @followed s rest i j course later outcome hs hrest ihs ihrest =>
      have hstart : (i.atLine s.line).stack.length ≤ maxFrames := by
        rwa [Interpreter.stack_atLine, length_atLine]
      have hlater := ihrest (hs.length_balanced ▸ hstart)
      exact List.forall_mem_cons.mpr ⟨hi, List.forall_mem_append.mpr ⟨ihs hstart, hlater⟩⟩

/-- **The stack overflows** exactly if something would enter a block, and the stack is full. -/
theorem overflow_iff (h : Executes p i course outcome) (hi : i.stack.length ≤ maxFrames) (line : Nat) :
    outcome.2 = .error (.stackOverflow line) ↔ Course.Overflows line course := by
  induction h with
  | @ended p i outcome h =>
      have hstays : ¬ p.Enters i := by
        intro henters
        obtain ⟨e, j, hturn⟩ := Piece.enters_iff.mp henters
        rw [h] at hturn
        cases hturn
      have hquiet := (Piece.on_of_turn h).2 line
      simp [Course.overflows_cons, Course.not_overflows_nil, hquiet, hstays]
  | @refused p i j e h hfull =>
      have hsame : j.stack = i.stack := Piece.on_of_turn h
      have henters : p.Enters i := Piece.enters_iff.mpr ⟨e, j, h⟩
      have hline : j.currentLine = i.currentLine := by
        rw [Interpreter.currentLine, hsame, Interpreter.currentLine]
      have hheight : i.stack.length = maxFrames := by
        rw [hsame] at hfull
        omega
      simp [Course.overflows_cons, Course.not_overflows_nil, henters, hheight, hline]
  | @entered p i j e course outcome h hroom hbody ih =>
      have hsame : j.stack = i.stack := Piece.on_of_turn h
      rw [ih (by rw [length_push]; omega), Course.overflows_cons, or_iff_right]
      -- There was room where this block was entered.
      rintro ⟨-, hfull, -⟩
      rw [hsame] at hroom
      omega
  | finished i => simp [Course.overflows_cons, Course.not_overflows_nil, Piece.Enters]
  | @failed s rest i j course fault hs ih =>
      rw [ih (by rwa [Interpreter.stack_atLine, length_atLine]), Course.overflows_cons, or_iff_right]
      exact fun hover => hover.1
  | @followed s rest i j course later outcome hs hrest ihs ihrest =>
      have hstart : (i.atLine s.line).stack.length ≤ maxFrames := by
        rwa [Interpreter.stack_atLine, length_atLine]
      -- The statement succeeded, so nothing in it met a full stack.
      have hs' : ¬ Course.Overflows line course := by
        rw [← ihs hstart]
        simp
      rw [ihrest (hs.length_balanced ▸ hstart), Course.overflows_cons, Course.overflows_append,
        or_iff_right hs', or_iff_right]
      exact fun hover => hover.1

end Executes

/-! ### The interpreter -/

namespace Run

variable {r : Run Outcome} {i : Interpreter}

theorem undisturbed_andThen_ok (h : r.undisturbed = (i, .ok ())) (next : Interpreter → Run Outcome) :
    (r.andThen next).undisturbed = (next i).undisturbed := by
  rw [andThen, undisturbed_bind, h]

theorem undisturbed_andThen_error {fault : ScriptFault} (h : r.undisturbed = (i, .error fault))
    (next : Interpreter → Run Outcome) : (r.andThen next).undisturbed = (i, .error fault) := by
  rw [andThen, undisturbed_bind, h]
  rfl

end Run

/-- Nobody but the line is moved where a debugger may look. -/
theorem undisturbed_checkpoint (line : Nat) (i : Interpreter) :
    (checkpoint line i).undisturbed = (i.atLine line, .ok ()) := by
  unfold checkpoint Interpreter.atLine
  split
  · next hstack =>
      rw [hstack, atLine, ← hstack]
      rfl
  · next hstack =>
      rw [hstack]
      rfl

/-- A block runs with room for one activation less, on an activation of its own. -/
theorem undisturbed_enter (room : Nat) (e : Entry) (i : Interpreter) :
    (enter (room + 1) e i).undisturbed =
      ((runBlock (enter room) e.body (i.push e)).undisturbed.1.pop,
        (runBlock (enter room) e.body (i.push e)).undisturbed.2) := by
  rw [enter, (announce_andThen e i _).2, Run.undisturbed_bind]
  rfl

section

variable {room : Nat} {p : Piece} {i : Interpreter}

/-- A statement or a script is executed if blocks are, with less room. -/
theorem exists_executes_turn {t : Turn} (h : p.turn? i = some t) (hi : i.stack.length + room = maxFrames)
    (hblocks : ∀ less, room = less + 1 → ∀ body j, j.stack.length + less = maxFrames →
      ∃ course, Executes (.block body) j course (runBlock (enter less) body j).undisturbed) :
    ∃ course, Executes p i course (p.runWith (enter room) i).undisturbed := by
  rw [Piece.runWith_eq h]
  cases t with
  | ended outcome => exact ⟨_, .ended h⟩
  | into e j =>
      have hsame : j.stack = i.stack := Piece.on_of_turn h
      cases room with
      | zero => exact ⟨_, .refused h (by rw [hsame]; omega)⟩
      | succ less =>
          obtain ⟨course, hbody⟩ := hblocks less rfl e.body (j.push e) (by rw [length_push, hsame]; omega)
          rw [Turn.run, undisturbed_enter]
          exact ⟨_, .entered h (by rw [hsame]; omega) hbody⟩

/-- A block is executed if statements are, with the same room: by induction on the statements. -/
theorem exists_executes_block
    (hstatements : ∀ s i, i.stack.length + room = maxFrames →
      ∃ course, Executes (.statement s) i course (runStatement (enter room) i s).undisturbed)
    (body : List Statement) : ∀ i, i.stack.length + room = maxFrames →
      ∃ course, Executes (.block body) i course (runBlock (enter room) body i).undisturbed := by
  induction body with
  | nil => exact fun i _ => ⟨_, .finished i⟩
  | cons s rest ih =>
      intro i hi
      obtain ⟨course, hs⟩ := hstatements s (i.atLine s.line) (by rwa [Interpreter.stack_atLine, length_atLine])
      rw [runBlock, Run.undisturbed_andThen_ok (undisturbed_checkpoint s.line i)]
      cases hout : (runStatement (enter room) (i.atLine s.line) s).undisturbed with
      | mk j result =>
          rw [hout] at hs
          cases result with
          | error fault =>
              rw [Run.undisturbed_andThen_error hout]
              exact ⟨_, .failed hs⟩
          | ok =>
              rw [Run.undisturbed_andThen_ok hout]
              have hj : j.stack.length = i.stack.length := by
                rw [hs.length_balanced, Interpreter.stack_atLine, length_atLine]
              obtain ⟨later, hrest⟩ := ih j (by rwa [hj])
              exact ⟨_, .followed hs hrest⟩

/-- **Blocks are executed**, by induction on the room that is left on the stack. -/
theorem exists_executes_blocks (room : Nat) : ∀ body i, i.stack.length + room = maxFrames →
    ∃ course, Executes (.block body) i course (runBlock (enter room) body i).undisturbed := by
  induction room with
  | zero =>
      refine exists_executes_block fun s i hi => ?_
      exact exists_executes_turn (p := .statement s) rfl hi fun less hless => by cases hless
  | succ room ih =>
      refine exists_executes_block fun s i hi => ?_
      refine exists_executes_turn (p := .statement s) rfl hi fun less hless => ?_
      obtain rfl := Nat.succ.inj hless
      exact ih

end

/-- **Everything is executed**, and the rules give what the interpreter does. -/
theorem exists_executes (p : Piece) {i : Interpreter} (hi : i.stack.length ≤ maxFrames) :
    ∃ course, Executes p i course (p.run i).undisturbed := by
  have hroom : i.stack.length + i.room = maxFrames := by
    rw [Interpreter.room]
    omega
  cases p with
  | block body => exact exists_executes_blocks i.room body i hroom
  | statement s =>
      exact exists_executes_turn (p := .statement s) rfl hroom fun less _ => exists_executes_blocks less
  | load script kind =>
      exact exists_executes_turn (p := .load script kind) rfl hroom fun less _ => exists_executes_blocks less

/-- A root script is loaded, and leaves an empty stack. -/
theorem undisturbed_run (i : Interpreter) (script : Script) :
    (i.run script).undisturbed =
      ({ ((Piece.load script .call).run i).undisturbed.1 with stack := [] },
        ((Piece.load script .call).run i).undisturbed.2) := by
  unfold Interpreter.run Interpreter.runRoot
  rw [Run.undisturbed]
  simp only [Run.undisturbed_bind]
  rfl

/-- **Scripts are executed without a bound, and the stack is kept balanced.** For every piece of a script
and every interpreter whose stack is not too high, the rules give one course and one outcome, which is that
of the interpreter. In between the stack is never higher than allowed. It overflows exactly if something
would enter a block on a full stack, whose innermost activation is at the line that the fault tells; this is
a statement that calls, includes or evaluates, or else the script that all of it is about. Afterwards the
stack is the one before, except that its innermost activation may be at another line; a root script leaves
it empty. -/
theorem execution_is_total (p : Piece) (i : Interpreter) (hi : i.stack.length ≤ maxFrames) :
    ∃ course outcome, Executes p i course outcome ∧
      (∀ course' outcome', Executes p i course' outcome' → course' = course ∧ outcome' = outcome) ∧
      outcome = (p.run i).undisturbed ∧
      (∀ q j, (q, j) ∈ course → j.stack.length ≤ maxFrames) ∧
      (∀ line, outcome.2 = .error (.stackOverflow line) ↔ ∃ q j, (q, j) ∈ course ∧ q.Enters j ∧
        j.stack.length = maxFrames ∧ j.currentLine = line) ∧
      (∀ script kind j, (.load script kind, j) ∈ course → p = .load script kind ∧ i = j) ∧
      (∃ line, outcome.1.stack = atLine line i.stack) ∧
      ∀ script, p = .load script .call →
        (i.run script).undisturbed = ({ outcome.1 with stack := [] }, outcome.2) := by
  obtain ⟨course, h⟩ := exists_executes p hi
  refine ⟨course, _, h, fun _ _ h' => h.unique h', rfl, fun q j hmem => h.bounded hi (q, j) hmem,
    h.overflow_iff hi, fun _ _ _ hmem => h.eq_of_load_mem hmem, h.balanced, ?_⟩
  rintro script rfl
  exact undisturbed_run i script

/-- An interpreter with a full stack that knows a function. -/
def crowded : Interpreter :=
  let script : Snapshot := { id := ⟨1⟩, title := "main", source := "call f", resource := some "main" }
  { stack := List.replicate maxFrames { script, line := 1, kind := .call, scope := globalScope }
    functions := Table.empty.insert "f" { script, body := [] } }

/-- The function is called in vain. -/
theorem execution_is_total_crowded : crowded.stack.length ≤ maxFrames ∧
    ∃ course outcome, Executes (.statement (.simple 1 (.call "f"))) crowded course outcome ∧
      outcome.2 = .error (.stackOverflow 1) := by
  have hfull : crowded.stack.length = maxFrames := List.length_replicate
  obtain ⟨course, outcome, h, -, -, -, hover, -⟩ :=
    execution_is_total (.statement (.simple 1 (.call "f"))) crowded (Nat.le_of_eq hfull)
  have hfails := (hover 1).mpr ⟨_, crowded, h.mem_course, ⟨_, rfl⟩, hfull, rfl⟩
  exact ⟨Nat.le_of_eq hfull, course, outcome, h, hfails⟩

end Pausepoint.Language
