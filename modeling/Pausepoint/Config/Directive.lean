import Pausepoint.Decimal.Layout
import Pausepoint.Decimal.Reading
import Pausepoint.Pattern.Support
import Pausepoint.Text.Blank
import Pausepoint.Text.Offset

/-!
# Directives of a log filter

A directive sets a level for everything or for one target, perhaps only inside a span of some name, or
where a field is present or has some value.

* `Level` — how much is logged;
* `FieldValue`, `FieldTest` — what is asked of a field;
* `Directive` — a directive, with its text;
* `Directive.compare` — the order of directives, the most specific first;
* `Directive.parse?` — a directive from its text.
-/

namespace Pausepoint

open Pausepoint.Text

/-! ### Levels -/

/-- How much is logged. -/
inductive Level
  | off
  | error
  /-- Warnings, and what is above. -/
  | warn
  /-- Notable events, and what is above. -/
  | info
  /-- Details, and what is above. -/
  | debug
  | trace
  deriving Repr, DecidableEq, Inhabited

def Level.name : Level → String
  | .off => "off"
  | .error => "error"
  | .warn => "warn"
  | .info => "info"
  | .debug => "debug"
  | .trace => "trace"

/-- All levels, in rising order. -/
def Level.all : List Level :=
  [.off, .error, .warn, .info, .debug, .trace]

/-- A text with its ASCII letters in lower case. -/
def lowerAscii (s : String) : String :=
  String.ofList (s.toList.map Char.toLower)

/-- A level by its name in any case, or by its number among all levels. -/
def Level.parse? (s : String) : Option Level :=
  match readUnsigned 5 s.toList with
  | .ok number => Level.all[number]?
  | .error _ => Level.all.find? fun level => level.name = lowerAscii s

/-! ### Fields -/

/-- What the value of a field is compared with. -/
inductive FieldValue
  | boolean (b : Bool)
  | float (x : Float)
  /-- The floating-point value that is no number. -/
  | notANumber
  /-- A number without a minus sign. -/
  | natural (n : Nat)
  /-- A number with a minus sign. -/
  | integer (n : Int)
  /-- A pattern for the text of the value. -/
  | pattern (text : String)
  deriving Inhabited

namespace FieldValue

def text : FieldValue → String
  | .boolean b => if b then "true" else "false"
  | .float x => Decimal.Layout.display.text x
  | .notANumber => Decimal.Layout.display.nan
  | .natural n => toString n
  | .integer n => toString n
  | .pattern text => text

/-- The place of a kind of values among all kinds. -/
def rank : FieldValue → Nat
  | .boolean _ => 0
  | .float _ => 1
  | .notANumber => 2
  | .natural _ => 3
  | .integer _ => 4
  | .pattern _ => 5

/-- The order of values: by kind, and by size or text within a kind. -/
def compare : FieldValue → FieldValue → Ordering
  | .boolean a, .boolean b => Ord.compare a b
  | .float x, .float y => if x < y then .lt else if y < x then .gt else .eq
  | .natural m, .natural n => Ord.compare m n
  | .integer m, .integer n => Ord.compare m n
  | .pattern s, .pattern t => Ord.compare s t
  | a, b => Ord.compare a.rank b.rank

instance : Ord FieldValue where
  compare := compare

/-- The largest number without a sign. -/
def maxNatural : Nat := 18446744073709551615

/-- The largest number behind a minus sign. -/
def maxNegated : Nat := 9223372036854775808

/-- A number with a minus sign. -/
def readNegative? : List Char → Option Int
  | '-' :: rest => (digitsValue maxNegated rest).toOption.map fun n => -(n : Int)
  | _ => none

/-- A value from its text: of all kinds that the text fits, the first in the order of simplicity. -/
def parse? (cs : List Char) : Option FieldValue :=
  if cs = "true".toList then some (.boolean true)
  else if cs = "false".toList then some (.boolean false)
  else match readUnsigned maxNatural cs, readNegative? cs, Decimal.readSigned cs with
    | .ok n, _, _ => some (.natural n)
    | _, some n, _ => some (.integer n)
    | _, _, some x => some (if x.isNaN then .notANumber else .float x)
    | _, _, none => if Pattern.isPattern cs then some (.pattern (String.ofList cs)) else none

end FieldValue

/-- What is asked of a field: to be present, or to have a value. -/
structure FieldTest where
  /-- The name of the field. -/
  name : String
  /-- The value it has to have. -/
  value : Option FieldValue := none
  deriving Inhabited

namespace FieldTest

def text (t : FieldTest) : String :=
  match t.value with
  | some value => t.name ++ "=" ++ value.text
  | none => t.name

/-- The order of tests: those without a value first, then by name and value. -/
def compare (a b : FieldTest) : Ordering :=
  (Ord.compare a.value.isSome b.value.isSome).then <|
    (Ord.compare a.name b.name).then <| Ord.compare a.value b.value

instance : Ord FieldTest where
  compare := compare

/-- A test from its text. A second sign of equality ends the value. -/
def parse? (cs : List Char) : Option FieldTest :=
  let name := String.ofList (cs.takeWhile (· ≠ '='))
  match cs.dropWhile (· ≠ '=') with
  | [] => some { name }
  | _ :: rest => (FieldValue.parse? (rest.takeWhile (· ≠ '='))).map fun value => { name, value := some value }

end FieldTest

/-! ### Directives -/

/-- What is logged, of what, and where. -/
structure Directive where
  /-- The target, if it is not for everything. -/
  target : Option String := none
  /-- The name of the span it is restricted to. -/
  span : Option String := none
  /-- What it asks of a field of the span. -/
  field : Option FieldTest := none
  level : Level := .trace
  deriving Inhabited

namespace Directive

/-- Does it need to know the spans that are open? -/
def isContextual (d : Directive) : Bool :=
  d.span.isSome || d.field.isSome

/-- Can it be decided for a whole place in the program, by the target and the names of the fields? -/
def isFixed (d : Directive) : Bool :=
  d.span.isNone && d.field.all (·.value.isNone)

/-- What it is restricted to inside its target. -/
def contextText (d : Directive) : String :=
  if d.isContextual then
    "[" ++ d.span.getD "" ++ (d.field.map fun t => "\x7b" ++ t.text ++ "\x7d").getD "" ++ "]"
  else ""

def text (d : Directive) : String :=
  if d.target.isSome || d.isContextual then
    d.target.getD "" ++ d.contextText ++ "=" ++ d.level.name
  else d.level.name

/-- How specific a directive is, apart from its level: by the length of the target, by whether a span and
a field are named, and then by their texts. -/
def compareSpecificity (a b : Directive) : Ordering :=
  (Ord.compare (a.target.map String.utf8ByteSize) (b.target.map String.utf8ByteSize)).then <|
    (Ord.compare a.span.isSome b.span.isSome).then <|
    (Ord.compare a.field.isSome b.field.isSome).then <|
    (Ord.compare a.target b.target).then <|
    (Ord.compare a.span b.span).then <| Ord.compare a.field b.field

/-- The order of directives, the most specific first. Two at the same place stand for the same things. -/
def compare (a b : Directive) : Ordering :=
  compareSpecificity b a

/-! ### Reading

The shape of a directive is that of its text without the blanks around it. Its parts are cut out of the
text as it is written, blanks included, at the offsets at which they lie without the blanks. So a blank
behind a directive belongs to its last part, and one in front of it moves every boundary. -/

/-- May a directive begin with the character? -/
def canBegin (c : Char) : Bool :=
  c = '[' || c = '-' || c = ':' || c = '_' || isAlphanumeric c

/-- A directive that is a single word: a level, or a target of which everything is logged. -/
def ofWord (word : String) : Directive :=
  match Level.parse? word with
  | some level => { level }
  | none => { target := some word }

/-- The level from an offset on; none written means everything. -/
def levelFrom? (written : List Char) (start : Nat) : Option Level :=
  match splitBytes? written start with
  | some (_, []) => some .trace
  | some (_, text) => Level.parse? (String.ofList text)
  | none => none

/-- The level behind a closing bracket, at whose offset `rest` follows. -/
def readLevel? (written : List Char) (offset : Nat) : (rest : List Char) → Option Level
  | [] => some .trace
  | '=' :: _ => levelFrom? written (offset + 1)
  | _ => none

/-- A part between two offsets as a text. -/
def part? (written : List Char) (start stop : Nat) : Option String :=
  (cut? written start stop).map String.ofList

/-- The rest of a directive behind its opening bracket, at whose offset `cs` follows. -/
def readContext? (written : List Char) (target : Option String) (offset : Nat) (cs : List Char) :
    Option Directive :=
  let nameStop := offset + byteSize (cs.takeWhile fun c => c ≠ ']' && c ≠ '\x7b')
  match cs.dropWhile fun c => c ≠ ']' && c ≠ '\x7b' with
  | ']' :: rest => do
      let span ← part? written offset nameStop
      let level ← readLevel? written (nameStop + 1) rest
      return { target, span := some span, level }
  | _ :: rest =>
      let test := rest.takeWhile (· ≠ '\x7d')
      let testStop := nameStop + 1 + byteSize test
      match test, rest.dropWhile (· ≠ '\x7d') with
      | _ :: _, _ :: ']' :: rest => do
          let span ← part? written offset nameStop
          let field ← (cut? written (nameStop + 1) testStop).bind FieldTest.parse?
          let level ← readLevel? written (testStop + 2) rest
          return { target, span := if span.isEmpty then none else some span, field := some field, level }
      | _, _ => none
  | [] => none

def parse? (written : List Char) : Option Directive :=
  let cs := trim written
  let wordStop := byteSize (cs.takeWhile fun c => c ≠ '=' && c ≠ '[')
  if !cs.head?.any canBegin then none
  else match cs.dropWhile fun c => c ≠ '=' && c ≠ '[' with
    | [] => some (ofWord (String.ofList written))
    | '[' :: rest =>
        if wordStop = 0 then readContext? written none 1 rest
        else (part? written 0 wordStop).bind fun target =>
          readContext? written (some target) (wordStop + 1) rest
    | _ :: _ => do
        let target ← part? written 0 wordStop
        let level ← levelFrom? written (wordStop + 1)
        return { target := some target, level }

end Directive

end Pausepoint
