import Pausepoint.Pattern.Basic
import Pausepoint.Text.Blank
import Pausepoint.Text.Hex

/-!
# Blanks and escapes of a pattern

* `skipBlanks` — passes over what says nothing while a pattern is verbose;
* `Escape`, `readEscape` — what stands behind a backslash, alike inside and outside of a class.

A reader gives what it read together with what follows, or nothing where the text is malformed.
-/

namespace Pausepoint.Pattern

open Pausepoint.Text

/-! ### Blanks -/

/-- The text behind blanks and comments, from a place inside or outside of a comment on. A comment goes
from a hash to the end of the line. -/
def skipRemarks : (inComment : Bool) → List Char → List Char
  | _, [] => []
  | true, c :: rest => skipRemarks (c ≠ '\n') rest
  | false, c :: rest =>
      if isBlank c then skipRemarks false rest
      else if c = '#' then skipRemarks true rest
      else c :: rest

/-- The text behind blanks and comments, if they say nothing. -/
def skipBlanks (verbose : Bool) (cs : List Char) : List Char :=
  if verbose then skipRemarks false cs else cs

/-! ### Escapes -/

/-- What an escape stands for. -/
inductive Escape
  | literal (l : Literal)
  /-- An edge of the text. -/
  | edge
  /-- An edge of a word, or the absence of one. -/
  | wordEdge
  /-- The digits, the blanks or the characters of words, or all others. -/
  | shorthand (negated : Bool)
  deriving Repr, DecidableEq

/-- The value of so many more hexadecimal digits behind those that were read. -/
def readHexDigits (verbose : Bool) : (count value : Nat) → List Char → Option (Nat × List Char)
  | 0, value, cs => some (value, cs)
  | count + 1, value, cs =>
      match skipBlanks verbose cs with
      | [] => none
      | c :: rest => (hexValue? c).bind fun digit => readHexDigits verbose count (16 * value + digit) rest

/-- A character by its number in so many hexadecimal digits. -/
def readHexEscape (verbose : Bool) (count : Nat) (cs : List Char) : Option (Escape × List Char) := do
  let (value, rest) ← readHexDigits verbose count 0 cs
  let char ← charOf? value
  return (.literal { char, isByte := count = 2 }, rest)

/-- What a letter or an angle stands for, hexadecimal digits apart. A capital among the shorthands means all
other characters. -/
def Escape.ofLetter? : Char → Option Escape
  | 'a' => some (.literal { char := '\x07' })
  | 'f' => some (.literal { char := '\x0c' })
  | 'n' => some (.literal { char := '\n' })
  | 'r' => some (.literal { char := '\r' })
  | 't' => some (.literal { char := '\t' })
  | 'v' => some (.literal { char := '\x0b' })
  | 'A' | 'z' => some .edge
  | 'b' | 'B' | '<' | '>' => some .wordEdge
  | 'd' | 's' | 'w' => some (.shorthand false)
  | 'D' | 'S' | 'W' => some (.shorthand true)
  | _ => none

/-- Does the character stand for itself behind a backslash? All of ASCII does but letters and digits, and
but the marks of the edges of a word. -/
def isEscapable (c : Char) : Bool :=
  decide (c.toNat < 0x80) && !c.isAlphanum && c != '<' && c != '>'

/-- The rest of an escape, behind its backslash. -/
def readEscape (verbose : Bool) : List Char → Option (Escape × List Char)
  | [] => none
  | 'x' :: rest => readHexEscape verbose 2 rest
  | 'u' :: rest => readHexEscape verbose 4 rest
  | 'U' :: rest => readHexEscape verbose 8 rest
  | c :: rest =>
      if isEscapable c then some (.literal { char := c }, rest)
      else (Escape.ofLetter? c).map fun escape => (escape, rest)

end Pausepoint.Pattern
