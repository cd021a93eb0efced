import Pausepoint.Language.Expr
import Pausepoint.Text.Lines

/-!
# Statements

A script is read line by line. A line that is blank or begins with `#` says nothing; every other line
begins with a keyword and is either a statement of its own, the head of a function, or the end of one.

* `significant` — the lines that say something, with their 1-based numbers, without blanks around them;
* `Header`, `Header.read` — what one such line is, whatever stands around it;
* `assemble` — puts statements and function bodies together, keeping the open functions on a stack;
* `parse` — the statements of a source.

Lines are read and put together in one pass, so the fault that is reported is the first one from the
top; a missing end is reported only if nothing else is wrong, and at no line.
-/

namespace Pausepoint.Language

open Pausepoint.Text

/-- What a single line does. -/
inductive Action
  /-- Binds a variable of the current scope. -/
  | assign (name : String) (value : Expr)
  | print (value : Expr)
  | call (function : String)
  /-- Runs another resource in the current scope. -/
  | includeResource (resource : String)
  /-- Runs a text as code in the current scope. -/
  | eval (code : String)
  deriving Inhabited

/-- A statement with the number of its line. -/
inductive Statement
  | simple (line : Nat) (action : Action)
  /-- The definition of a function, from the line of its head. -/
  | function (line : Nat) (name : String) (body : List Statement)
  deriving Inhabited

/-- The line a statement begins on. -/
def Statement.line : Statement → Nat
  | .simple line _ => line
  | .function line _ _ => line

/-- What can be wrong with a line. -/
inductive SyntaxFault
  /-- An end without a function that is open. -/
  | strayEnd
  /-- A binding without its sign of equality. -/
  | assignShape
  /-- A binding of something that is no name. -/
  | badName (name : String)
  /-- A fault in the expression of the line. -/
  | expression (fault : ExprFault)
  /-- A line of no known form. -/
  | unreadable (text : String)
  /-- A function without its end. -/
  | missingEnd

def SyntaxFault.message : SyntaxFault → String
  | .strayEnd => "`end` without `fn`"
  | .assignShape => "expected `let <name> = <expr>`"
  | .badName name => s!"invalid variable name `{name}`"
  | .expression fault => fault.message
  | .unreadable text => s!"cannot parse `{text}`"
  | .missingEnd => "missing `end`"

/-! ### One line -/

/-- What a significant line is. -/
inductive Header
  | action (a : Action)
  /-- The head of a function. -/
  | function (name : String)
  /-- The end of a function. -/
  | close
  deriving Inhabited

/-- The keyword of a line, up to its first blank, and the rest without blanks around it. -/
def splitKeyword (text : List Char) : String × List Char :=
  match splitAtBlank text with
  | some (keyword, rest) => (String.ofList keyword, trim rest)
  | none => (String.ofList text, [])

/-- Reads a binding after its keyword. -/
def readAssign (rest : List Char) : Except SyntaxFault Action :=
  match splitAtChar '=' rest with
  | none => .error .assignShape
  | some (name, value) =>
      let name := trim name
      if isName name then
        match parseExpr value with
        | .ok e => .ok (.assign (String.ofList name) e)
        | .error fault => .error (.expression fault)
      else .error (.badName (String.ofList name))

/-- Reads one significant line. -/
def Header.read (text : List Char) : Except SyntaxFault Header :=
  let (keyword, rest) := splitKeyword text
  if keyword = "end" then .ok .close
  else if keyword = "let" then (readAssign rest).map .action
  else if keyword = "print" then
    match parseExpr rest with
    | .ok e => .ok (.action (.print e))
    | .error fault => .error (.expression fault)
  else if keyword = "call" && isName rest then .ok (.action (.call (String.ofList rest)))
  else if keyword = "fn" && isName rest then .ok (.function (String.ofList rest))
  else if keyword = "include" && !rest.isEmpty then
    .ok (.action (.includeResource (String.ofList rest)))
  else if keyword = "eval" && !rest.isEmpty then .ok (.action (.eval (String.ofList rest)))
  else .error (.unreadable (String.ofList text))

/-! ### All lines -/

/-- A line with its 1-based number. -/
abbrev NumberedLine := Nat × List Char

/-- Does a line, without blanks around it, say anything? -/
def isSignificant (text : List Char) : Bool :=
  !text.isEmpty && text.head? != some '#'

/-- The significant lines of a source, numbered from `first` on. -/
def significantFrom (first : Nat) : List (List Char) → List NumberedLine
  | [] => []
  | line :: rest =>
      let text := trim line
      if isSignificant text then (first, text) :: significantFrom (first + 1) rest
      else significantFrom (first + 1) rest

def significant (source : String) : List NumberedLine :=
  significantFrom 1 (lines source.toList)

/-- A function whose end has not been read: the line of its head, its name, and the statements around it
that were read before it, newest first. -/
structure OpenFunction where
  /-- The line of the head. -/
  line : Nat
  name : String
  /-- The statements before it, newest first. -/
  before : List Statement

/-- A fault and the line it is reported at. -/
abbrev LineFault := Nat × SyntaxFault

/-- Reads the remaining lines inside the open functions, innermost first; `done` are the statements of
the innermost one that were read already, newest first. -/
def assemble : List OpenFunction → List Statement → List NumberedLine →
    Except LineFault (List Statement)
  | [], done, [] => .ok done.reverse
  | _ :: _, _, [] => .error (0, .missingEnd)
  | enclosing, done, (line, text) :: rest =>
      match Header.read text with
      | .error fault => .error (line, fault)
      | .ok (.action a) => assemble enclosing (.simple line a :: done) rest
      | .ok (.function name) => assemble (⟨line, name, done⟩ :: enclosing) [] rest
      | .ok .close =>
          match enclosing with
          | [] => .error (line, .strayEnd)
          | f :: outer => assemble outer (.function f.line f.name done.reverse :: f.before) rest

def parse (source : String) : Except LineFault (List Statement) :=
  assemble [] [] (significant source)

end Pausepoint.Language
