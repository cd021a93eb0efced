import Pausepoint.Language.Evaluation
import Pausepoint.Language.Run
import Pausepoint.Language.Statement

/-!
# The interpreter

A script runs statement by statement. Function bodies run in a scope of their own and see the globals;
an included resource and evaluated code run in the scope of whoever asked for them.

* `Interpreter` — everything that a run reads and changes; it can be used for several runs, which share
  globals and functions;
* `runBlock` — a list of statements, given how to enter another block;
* `enter` — another block on a new activation, as long as there is room for one;
* `Interpreter.run` — a root script from start to end, with the engine's start and end around it.

`enter` recurses on the room that is left on the stack, and `runBlock` on the statements that are left in
the block, so every script ends: no bound on the number of steps is needed. A block is entered only
through `enter`, which refuses exactly when the stack is full.
-/

namespace Pausepoint.Language

/-- The deepest call stack a script may build by calls, inclusions and evaluations. -/
def maxFrames : Nat := 200

/-! ### Faults -/

/-- Why a run failed. -/
inductive ScriptFault
  /-- A source has a fault at a line; line 0 stands for its end. -/
  | parse (title : String) (line : Nat) (fault : SyntaxFault)
  /-- An expression of a line has no value. -/
  | evaluation (line : Nat) (fault : EvalFault)
  /-- A line calls a function that is not defined. -/
  | unknownFunction (line : Nat) (name : String)
  /-- A resource has no readable text. -/
  | unknownResource (resource : String)
  /-- A function is defined where no script runs. -/
  | misplacedFunction (line : Nat)
  /-- The call stack is full. -/
  | stackOverflow (line : Nat)
  /-- The debugger refused to let the script go on. -/
  | refused (cause : Refusal)

/-- The wording of a fault of evaluation at a line. -/
def EvalFault.message (line : Nat) : EvalFault → String
  | .unknownVariable name => s!"line {line}: unknown variable `{name}`"
  | .cannotNegate type => s!"line {line}: cannot negate {type}"
  | .overflow => s!"line {line}: integer overflow"
  | .unsupported lhs rhs => s!"line {line}: unsupported operands {lhs} and {rhs}"

def ScriptFault.message : ScriptFault → String
  | .parse title line fault => s!"{title}:{line}: {fault.message}"
  | .evaluation line fault => fault.message line
  | .unknownFunction line name => s!"line {line}: unknown function `{name}`"
  | .unknownResource resource => s!"cannot load `{resource}`"
  | .misplacedFunction line => s!"line {line}: function defined outside a script"
  | .stackOverflow line => s!"line {line}: call stack exceeds {maxFrames} frames"
  | .refused cause => cause.message

/-! ### The state of a run -/

/-- A function, with the script whose line numbers its body has. -/
structure Function where
  /-- The script it was defined in. -/
  script : Snapshot
  body : List Statement
  deriving Inhabited

/-- One entry of the stack of a running script. -/
structure Activation where
  /-- The script whose statements run. -/
  script : Snapshot
  /-- The line of the statement that runs; before the first one, where the block was entered. -/
  line : Nat
  /-- Why it is on the stack. -/
  kind : FrameKind
  /-- The place of its scope in the interpreter's heap. -/
  scope : Nat
  /-- The function, if it is a call of one. -/
  function : Option String := none
  deriving Repr, DecidableEq, Inhabited

structure Interpreter where
  /-- The number of its heap, by which debuggers tell its scopes from those of others. -/
  heapNumber : Nat := 0
  /-- Resources that are held in memory. -/
  resources : Table String String := .empty
  /-- The text of any other resource, `none` where it cannot be read. -/
  files : String → Option String := fun _ => none
  /-- The number of the script that is loaded next. -/
  nextScript : Nat := 1
  /-- Its scopes; the first one holds the globals. -/
  heap : Heap := Heap.create {}
  /-- The stack, innermost first. -/
  stack : List Activation := []
  /-- The functions that were defined. -/
  functions : Table String Function := .empty
  /-- The lines that were printed. -/
  output : Array String := #[]
  deriving Inhabited

/-- The place of the globals in an interpreter's heap. -/
def globalScope : Nat := 0

namespace Interpreter

/-- The scope that statements read and write. -/
def currentScope (i : Interpreter) : Nat :=
  match i.stack with
  | [] => globalScope
  | top :: _ => top.scope

def globals (i : Interpreter) : Entries :=
  i.heap.bindings globalScope

/-- The value of a variable: of the current scope, else of the globals. -/
def lookup (i : Interpreter) (name : String) : Option Value :=
  match i.heap.get? i.currentScope name with
  | some v => some v
  | none => i.heap.get? globalScope name

def load (i : Interpreter) (resource : String) : Option String :=
  match i.resources.get? resource with
  | some source => some source
  | none => i.files resource

/-- Takes the identity for the script that is loaded next. -/
def takeScriptId (i : Interpreter) : ScriptId × Interpreter :=
  (⟨i.nextScript⟩, { i with nextScript := i.nextScript + 1 })

/-- The line of the innermost activation, 0 if there is none. -/
def currentLine (i : Interpreter) : Nat :=
  match i.stack with
  | [] => 0
  | top :: _ => top.line

end Interpreter

/-- An activation as a frame of a call stack. -/
def Activation.frame (heapNumber : Nat) (a : Activation) : Frame :=
  let frame := Frame.capture a.script a.line a.kind (some ⟨heapNumber, a.scope⟩)
  match a.function with
  | some name => frame.withName (name ++ "() line " ++ toString a.line)
  | none => frame

/-- The call stack as a debugger sees it, innermost first. -/
def Interpreter.frames (i : Interpreter) : List Frame :=
  i.stack.map (Activation.frame i.heapNumber)

/-! ### Statements -/

/-- What running something leaves behind: the interpreter, and whether it came to an end. -/
abbrev Outcome := Interpreter × Except ScriptFault Unit

/-- Continues after success. -/
def Run.andThen (r : Run Outcome) (next : Interpreter → Run Outcome) : Run Outcome :=
  r.bind fun
    | (i, .ok ()) => next i
    | (i, .error fault) => .done (i, .error fault)

/-- The end of something that succeeded. -/
def succeed (i : Interpreter) : Run Outcome :=
  .done (i, .ok ())

/-- The end of something that failed. -/
def fail (i : Interpreter) (fault : ScriptFault) : Run Outcome :=
  .done (i, .error fault)

/-- What a reply means for a script: a timeout lets it go on, every other refusal ends it. -/
def heed (i : Interpreter) : Reply → Run Outcome
  | .ok () => succeed i
  | .error (.resumeTimeout _) => succeed i
  | .error cause => fail i (.refused cause)

/-- A block that is to be entered. -/
structure Entry where
  /-- The script whose statements they are. -/
  script : Snapshot
  /-- The line shown before the first statement runs. -/
  line : Nat
  kind : FrameKind
  /-- The scope to run in; a new one if there is none. -/
  scope : Option Nat
  /-- The function, if it is a call of one. -/
  function : Option String
  /-- Is the debugger told before it is entered? -/
  announced : Bool
  body : List Statement
  deriving Inhabited

/-- A script that was loaded, run in the given scope. -/
def Entry.ofScript (script : Snapshot) (kind : FrameKind) (scope : Nat) (body : List Statement) : Entry :=
  { script, line := 0, kind, scope := some scope, function := none, announced := true, body }

/-- A call of a function from the given line. -/
def Entry.ofCall (name : String) (line : Nat) (f : Function) : Entry :=
  { script := f.script, line, kind := .call, scope := none, function := some name,
    announced := false, body := f.body }

/-- Parses a script and enters it. -/
def loadScript (enter : Entry → Interpreter → Run Outcome) (script : Script) (kind : FrameKind)
    (i : Interpreter) : Run Outcome :=
  match parse script.source with
  | .error (line, fault) => fail i (.parse script.title line fault)
  | .ok body => enter (.ofScript script.snapshot kind i.currentScope body) i

/-- Moves the innermost activation to a line and lets the debugger look. -/
def checkpoint (line : Nat) (i : Interpreter) : Run Outcome :=
  match i.stack with
  | [] => succeed i
  | top :: below =>
      let i := { i with stack := { top with line } :: below }
      .ask (.line top.script line i.stack.length i.frames) i.heap (heed i)

/-- Runs what a single line does. -/
def runAction (enter : Entry → Interpreter → Run Outcome) (line : Nat) (i : Interpreter) :
    Action → Run Outcome
  | .assign name e =>
      match e.eval i.lookup with
      | .error fault => fail i (.evaluation line fault)
      | .ok v => succeed { i with heap := i.heap.set i.currentScope name v }
  | .print e =>
      match e.eval i.lookup with
      | .error fault => fail i (.evaluation line fault)
      | .ok v => succeed { i with output := i.output.push v.display }
  | .call name =>
      match i.functions.get? name with
      | none => fail i (.unknownFunction line name)
      | some f => enter (.ofCall name line f) i
  | .includeResource resource =>
      match i.load resource with
      | none => fail i (.unknownResource resource)
      | some source =>
          let (id, i) := i.takeScriptId
          loadScript enter { id, source, resource := some resource } .included i
  | .eval code =>
      let (id, i) := i.takeScriptId
      loadScript enter { id, source := code, givenTitle := some "eval" } .dynamic i

def runStatement (enter : Entry → Interpreter → Run Outcome) (i : Interpreter) :
    Statement → Run Outcome
  | .simple line a => runAction enter line i a
  | .function line name body =>
      match i.stack with
      | [] => fail i (.misplacedFunction line)
      | top :: _ => succeed { i with functions := i.functions.insert name ⟨top.script, body⟩ }

/-- Runs statements in order, each after the debugger has looked at its line. -/
def runBlock (enter : Entry → Interpreter → Run Outcome) : List Statement → Interpreter → Run Outcome
  | [], i => succeed i
  | s :: rest, i =>
      (checkpoint s.line i).andThen fun i =>
        (runStatement enter i s).andThen fun i => runBlock enter rest i

/-! ### Blocks -/

/-- Puts an entry on the stack, in a new scope if it has none. -/
def Interpreter.push (i : Interpreter) (e : Entry) : Interpreter :=
  let activation : Nat → Activation := fun scope =>
    { script := e.script, line := e.line, kind := e.kind, scope, function := e.function }
  match e.scope with
  | some scope => { i with stack := activation scope :: i.stack }
  | none => { i with heap := i.heap.create, stack := activation i.heap.next :: i.stack }

/-- Takes the innermost activation off the stack. -/
def Interpreter.pop (i : Interpreter) : Interpreter :=
  { i with stack := i.stack.tail }

/-- Lets the debugger look at a script before it is entered. -/
def announce (e : Entry) (i : Interpreter) : Run Outcome :=
  if e.announced then .ask (.load e.script i.stack.length) i.heap (heed i) else succeed i

/-- Enters a block with room for so many activations: announces it, runs it on an activation of its own,
and leaves it, whether it succeeded or not. -/
def enter : Nat → Entry → Interpreter → Run Outcome
  | 0, _, i => fail i (.stackOverflow i.currentLine)
  | room + 1, e, i =>
      (announce e i).andThen fun i =>
        (runBlock (enter room) e.body (i.push e)).bind fun (i, result) => .done (i.pop, result)

namespace Interpreter

/-- The room that is left on the stack. -/
def room (i : Interpreter) : Nat :=
  maxFrames - i.stack.length

/-- Runs a root script in the globals and leaves the stack empty. -/
def runRoot (i : Interpreter) (script : Script) : Run Outcome :=
  (loadScript (enter i.room) script .call i).bind fun (i, result) =>
    .done ({ i with stack := [] }, result)

/-- Runs a root script from the engine's start to its end. If the start is refused nothing runs; the end
is reported in any case, and its reply makes no difference. -/
def run (i : Interpreter) (script : Script) : Run Outcome :=
  .ask .started i.heap fun
    | .error cause => fail i (.refused cause)
    | .ok () => (i.runRoot script).bind fun (i, result) =>
        .ask .ended i.heap fun _ => .done (i, result)

end Interpreter

end Pausepoint.Language
