/-!
# Lines of a text

A line ends at a line feed, or at a carriage return with a line feed after it; the ending is no part
of the line. The text after the last ending is a line only if it is not empty, and a carriage return
anywhere else is an ordinary character.
-/

namespace Pausepoint.Text

/-- Puts a character in front of the first line. -/
def consFirst (c : Char) : List (List Char) → List (List Char)
  | [] => [[c]]
  | line :: rest => (c :: line) :: rest

/-- The lines of a text, without their endings. -/
def lines : List Char → List (List Char)
  | [] => []
  | '\n' :: rest => [] :: lines rest
  | '\r' :: '\n' :: rest => [] :: lines rest
  | c :: rest => consFirst c (lines rest)

/-- The line with the given 1-based number; number 0 names no line. -/
def line? (source : String) (number : Nat) : Option String :=
  if number = 0 then none else (lines source.toList)[number - 1]?.map String.ofList

end Pausepoint.Text
