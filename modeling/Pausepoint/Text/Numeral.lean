/-!
# Whole numbers in decimal

Reading goes from left to right: a character that is no digit is reported before a bound that the
digits after it might break, and a bound is reported at the digit that breaks it.

* `digitsValue` — the value of ASCII digits under a bound;
* `readUnsigned` — the same with one optional plus sign in front;
* `NumeralFault` — what can be wrong, with its wording.
-/

namespace Pausepoint.Text

/-- What is wrong with the text of a number. -/
inductive NumeralFault
  | empty
  /-- A character is no digit, or a sign stands alone. -/
  | invalidDigit
  /-- The value is above the bound. -/
  | tooLarge
  deriving Repr, DecidableEq

def NumeralFault.message : NumeralFault → String
  | .empty => "cannot parse integer from empty string"
  | .invalidDigit => "invalid digit found in string"
  | .tooLarge => "number too large to fit in target type"

/-- The value of an ASCII digit. -/
def digitValue? (c : Char) : Option Nat :=
  if c.isDigit then some (c.toNat - '0'.toNat) else none

/-- Reads digits behind the value `acc` of those already read, under the inclusive bound `max`. -/
def digitsFrom (max : Nat) : Nat → List Char → Except NumeralFault Nat
  | acc, [] => .ok acc
  | acc, c :: rest =>
      match digitValue? c with
      | none => .error .invalidDigit
      | some d => if 10 * acc + d ≤ max then digitsFrom max (10 * acc + d) rest else .error .tooLarge

/-- The value of a non-empty run of digits, at most `max`. -/
def digitsValue (max : Nat) : List Char → Except NumeralFault Nat
  | [] => .error .empty
  | cs => digitsFrom max 0 cs

/-- Reads a number without a minus sign, at most `max`. -/
def readUnsigned (max : Nat) : List Char → Except NumeralFault Nat
  | [] => .error .empty
  | ['+'] => .error .invalidDigit
  | '+' :: rest => digitsFrom max 0 rest
  | cs => digitsFrom max 0 cs

/-- The digits of a number, at least one. -/
def digits (n : Nat) : List Char :=
  Nat.toDigits 10 n

/-- A number whose text is filled up with zeros on the left to the given width. -/
def paddedDigits (width n : Nat) : List Char :=
  List.replicate (width - (digits n).length) '0' ++ digits n

end Pausepoint.Text
