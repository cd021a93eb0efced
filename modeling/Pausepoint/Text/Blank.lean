import Pausepoint.Text.Ranges

/-!
# Blank characters

Every text that people type is read up to surrounding blanks: statements, expressions, breakpoint
lines, log levels. "Blank" is one set for all of them, the characters with the Unicode property
`White_Space`, which is larger than the ASCII blanks.

* `isBlank` — the property, as ranges of code points;
* `trim` — a text without the blanks at its ends;
* `splitAtBlank` — the part before the first blank, and the part after it.
-/

namespace Pausepoint.Text

/-- The code points with the property `White_Space`, as closed ranges. -/
def blankRanges : List (Nat × Nat) :=
  [(0x09, 0x0D), (0x20, 0x20), (0x85, 0x85), (0xA0, 0xA0), (0x1680, 0x1680), (0x2000, 0x200A),
    (0x2028, 0x2029), (0x202F, 0x202F), (0x205F, 0x205F), (0x3000, 0x3000)]

/-- Does the character have the property `White_Space`? -/
def isBlank (c : Char) : Bool :=
  inRanges blankRanges c

/-- The text without the blanks before it. -/
def trimStart (cs : List Char) : List Char :=
  cs.dropWhile isBlank

/-- The text without the blanks after it. -/
def trimEnd (cs : List Char) : List Char :=
  (cs.reverse.dropWhile isBlank).reverse

/-- The text without the blanks around it. -/
def trim (cs : List Char) : List Char :=
  trimEnd (trimStart cs)

/-- The part before the first blank and the part after it, or `none` where there is no blank. -/
def splitAtBlank : List Char → Option (List Char × List Char)
  | [] => none
  | c :: rest =>
      if isBlank c then some ([], rest)
      else (splitAtBlank rest).map fun parts => (c :: parts.1, parts.2)

/-- The part before the first occurrence of a character and the part after it. -/
def splitAtChar (mark : Char) : List Char → Option (List Char × List Char)
  | [] => none
  | c :: rest =>
      if c = mark then some ([], rest)
      else (splitAtChar mark rest).map fun parts => (c :: parts.1, parts.2)

/-- The part before the last occurrence of a character and the part after it. -/
def splitAtLastChar (mark : Char) (cs : List Char) : Option (List Char × List Char) :=
  (splitAtChar mark cs.reverse).map fun parts => (parts.2.reverse, parts.1.reverse)

/-- A string without the blanks around it. -/
def trimString (s : String) : String :=
  String.ofList (trim s.toList)

end Pausepoint.Text
