import Pausepoint.Pattern.ClassReader
import Pausepoint.Text.Alphanumeric

/-!
# Reading a pattern

* `Token` — one step of a pattern;
* `Parts`, `OpenGroup` — what was read of the innermost group, and a group whose end has not been read;
* `Pattern.parse?` — the tree of a pattern.

Options hold from where they stand to the end of the innermost group, past the branches that follow. While
reading, only one of them matters: whether blanks say anything.

`assemble` recurses on a budget of steps. Each step takes a character, so one more than the length of the
text is enough.
-/

namespace Pausepoint.Pattern

open Pausepoint.Text

/-! ### Tokens -/

/-- One step of a pattern. -/
inductive Token
  /-- A part that stands by itself. -/
  | item (p : Pattern)
  | options (settings : List Setting)
  | opening (head : Group)
  | closing
  | bar
  /-- The part in front is repeated. -/
  | repetition

/-- May a group have the name? -/
def isGroupName : List Char → Bool
  | [] => false
  | c :: rest =>
      (c = '_' || isAlphabetic c) &&
        rest.all fun c => c = '_' || c = '.' || c = '[' || c = ']' || isAlphanumeric c

/-- A group with a name, behind the opening angle. -/
def readNamedGroup (cs : List Char) : Option (Token × List Char) :=
  let name := cs.takeWhile (· ≠ '>')
  match cs.dropWhile (· ≠ '>') with
  | _ :: rest => if isGroupName name then some (.opening { name := some name }, rest) else none
  | [] => none

/-- Settings by the letters of their flags. Those behind a minus sign are switched off; there is at most
one sign and it is not the last character, and no flag is mentioned twice. -/
def settingsOf? (cs : List Char) : Option (List Setting) := do
  let on ← (cs.takeWhile (· ≠ '-')).mapM Flag.ofLetter?
  let off ← match cs.dropWhile (· ≠ '-') with
    | [] => some []
    | [_] => none
    | _ :: letters => letters.mapM Flag.ofLetter?
  if (on ++ off).Nodup then
    return on.map (fun flag => { flag, on := true }) ++ off.map fun flag => { flag, on := false }
  else none

/-- Options, or a group with options, behind the question mark. -/
def readSettings (cs : List Char) : Option (Token × List Char) := do
  let settings ← settingsOf? (cs.takeWhile fun c => c ≠ ':' && c ≠ ')')
  match cs.dropWhile fun c => c ≠ ':' && c ≠ ')' with
  | ':' :: rest => return (.opening { settings }, rest)
  | ')' :: rest => if settings.isEmpty then none else return (.options settings, rest)
  | _ => none

/-- What an opening parenthesis begins. -/
def readGroup : List Char → Option (Token × List Char)
  | '?' :: 'P' :: '<' :: rest => readNamedGroup rest
  | '?' :: '<' :: rest => readNamedGroup rest
  | '?' :: rest => readSettings rest
  | rest => some (.opening {}, rest)

/-- The part that an escape stands for. -/
def Escape.toPattern : Escape → Pattern
  | .literal l => .literal l
  | .edge => .edge
  | .wordEdge => .wordEdge
  | .shorthand negated => .shorthand negated

/-- What follows a mark of repetition: a question mark belongs to it. -/
def skipGreed : List Char → List Char
  | '?' :: rest => rest
  | rest => rest

/-- The first step of the rest of a pattern. A brace would begin a range of counts, and the brace that ends
it would end the field. -/
def Token.read (verbose : Bool) : List Char → Option (Token × List Char)
  | [] => none
  | '(' :: rest => readGroup (skipBlanks verbose rest)
  | ')' :: rest => some (.closing, rest)
  | '|' :: rest => some (.bar, rest)
  | '*' :: rest => some (.repetition, skipGreed rest)
  | '+' :: rest => some (.repetition, skipGreed rest)
  | '?' :: rest => some (.repetition, skipGreed rest)
  | '\x7b' :: _ => none
  | '[' :: rest => (readClass verbose rest).map fun (p, rest) => (.item p, rest)
  | '\\' :: rest => (readEscape verbose rest).map fun (escape, rest) => (.item escape.toPattern, rest)
  | '.' :: rest => some (.item .anything, rest)
  | '^' :: rest => some (.item .edge, rest)
  | '$' :: rest => some (.item .edge, rest)
  | c :: rest => some (.item (.literal { char := c }), rest)

/-! ### Whole patterns -/

/-- What was read of a group. -/
structure Parts where
  /-- The branches that are complete, newest first. -/
  branches : List Pattern := []
  /-- The parts of the last branch, newest first. -/
  items : List Pattern := []

namespace Parts

/-- One more part. -/
def push (parts : Parts) (p : Pattern) : Parts :=
  { parts with items := p :: parts.items }

/-- The last branch is complete. -/
def endBranch (parts : Parts) : Parts :=
  { branches := ofItems parts.items.reverse :: parts.branches }

def whole (parts : Parts) : Pattern :=
  ofBranches parts.endBranch.branches.reverse

/-- The last part is repeated. There has to be one, and it has to be no options. -/
def repeatLast? (parts : Parts) : Option Parts :=
  match parts.items with
  | [] => none
  | .options _ :: _ => none
  | last :: before => some { parts with items := .repetition last :: before }

end Parts

/-- A group whose end has not been read. -/
structure OpenGroup where
  /-- What it says about itself. -/
  head : Group
  /-- What was read in front of it. -/
  before : Parts
  /-- Is the pattern around it verbose? -/
  verbose : Bool

/-- Reads the rest of a pattern inside the open groups, innermost first; `parts` were read of the
innermost one already. -/
def assemble : Nat → (verbose : Bool) → List OpenGroup → Parts → List Char → Option Pattern
  | 0, _, _, _, _ => none
  | budget + 1, verbose, enclosing, parts, cs =>
      match skipBlanks verbose cs, enclosing with
      | [], [] => some parts.whole
      | cs, enclosing =>
          match Token.read verbose cs with
          | none => none
          | some (.item p, rest) => assemble budget verbose enclosing (parts.push p) rest
          | some (.options settings, rest) =>
              assemble budget (Flag.verbose.stateAfter settings verbose) enclosing
                (parts.push (.options settings)) rest
          | some (.opening head, rest) =>
              assemble budget (Flag.verbose.stateAfter head.settings verbose)
                ({ head, before := parts, verbose } :: enclosing) {} rest
          | some (.closing, rest) =>
              match enclosing with
              | [] => none
              | g :: outer => assemble budget g.verbose outer (g.before.push (.group g.head parts.whole)) rest
          | some (.bar, rest) => assemble budget verbose enclosing parts.endBranch rest
          | some (.repetition, rest) =>
              match parts.repeatLast? with
              | none => none
              | some parts => assemble budget verbose enclosing parts rest

/-- The tree of a pattern, without a look at what its parts mean. -/
def parse? (cs : List Char) : Option Pattern :=
  assemble (cs.length + 1) false [] {} cs

end Pausepoint.Pattern
