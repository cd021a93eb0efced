import Pausepoint.Text.Numeral

/-!
# Durations

A duration is written in the largest unit of which it holds at least one, with as many decimals as it
needs and no more: `200ms`, `1s`, `1.05s`, `61.001s`. Durations here are whole milliseconds, so the
units are seconds and milliseconds; none at all is `0ns`.
-/

namespace Pausepoint.Text

/-- The decimals of a fraction in thousandths, without zeros at the end. -/
def thousandths (n : Nat) : List Char :=
  ((paddedDigits 3 n).reverse.dropWhile (· == '0')).reverse

/-- The text of a duration given in milliseconds. -/
def durationText (milliseconds : Nat) : String :=
  let seconds := milliseconds / 1000
  let rest := milliseconds % 1000
  if milliseconds = 0 then "0ns"
  else if seconds = 0 then String.ofList (digits rest) ++ "ms"
  else if rest = 0 then String.ofList (digits seconds) ++ "s"
  else String.ofList (digits seconds) ++ "." ++ String.ofList (thousandths rest) ++ "s"

end Pausepoint.Text
