/-!
# Offsets in bytes

Parts of a text by their offsets in its encoding. An offset inside a character names no part.
-/

namespace Pausepoint.Text

/-- The number of bytes of a text. -/
def byteSize (cs : List Char) : Nat :=
  (String.ofList cs).utf8ByteSize

/-- The text before an offset and the text from there on. -/
def splitBytes? : List Char → Nat → Option (List Char × List Char)
  | cs, 0 => some ([], cs)
  | [], _ + 1 => none
  | c :: cs, n + 1 =>
      if c.utf8Size ≤ n + 1 then
        (splitBytes? cs (n + 1 - c.utf8Size)).map fun (before, after) => (c :: before, after)
      else none

/-- The text between two offsets. -/
def cut? (cs : List Char) (start stop : Nat) : Option (List Char) := do
  let (_, rest) ← splitBytes? cs start
  let (part, _) ← splitBytes? rest (stop - start)
  return part

end Pausepoint.Text
