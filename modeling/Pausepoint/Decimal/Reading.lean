import Pausepoint.Text.Numeral

/-!
# Reading floating-point numbers

A decimal is digits with at most one point, of which at least one digit must be there, and perhaps an
exponent. Its value is rounded to the nearest double.

* `readPlain` — digits and a point, the form that script texts admit;
* `readSigned` — a sign, an exponent, and the names of infinity and of the value that is no number.
-/

namespace Pausepoint.Decimal

open Pausepoint.Text

/-- The value of ASCII digits, `none` where another character stands. -/
def digitsNat? (cs : List Char) : Option Nat :=
  cs.foldl (fun acc c => acc.bind fun v => (digitValue? c).map (10 * v + ·)) (some 0)

/-- The double nearest to `m · 10^e`. Exponents that no double can tell from infinity or zero are
decided without computing the power. -/
def scale (m : Nat) (e : Int) : Float :=
  let size : Int := (digits m).length
  if m = 0 then 0.0
  else if size + e > 400 then 1.0 / 0.0
  else if size + e < -400 then 0.0
  else if e < 0 then Float.ofScientific m true e.natAbs
  else Float.ofScientific m false e.natAbs

/-- Whole part and fraction of a text with at most one point; at least one digit is there. -/
def mantissa? (cs : List Char) : Option (Nat × Nat) :=
  let whole := cs.takeWhile (· ≠ '.')
  let fraction := (cs.dropWhile (· ≠ '.')).drop 1
  if whole.isEmpty && fraction.isEmpty then none
  else (digitsNat? (whole ++ fraction)).map fun m => (m, fraction.length)

/-- A number of digits and one point. -/
def readPlain (cs : List Char) : Option Float :=
  (mantissa? cs).map fun (m, places) => scale m (-(places : Int))

/-- A signed whole number, the exponent of a decimal. -/
def exponent? : List Char → Option Int
  | [] => none
  | '-' :: rest => if rest.isEmpty then none else (digitsNat? rest).map fun n => -(n : Int)
  | '+' :: rest => if rest.isEmpty then none else (digitsNat? rest).map Int.ofNat
  | cs => (digitsNat? cs).map Int.ofNat

/-- A number without a sign: a name, or digits and perhaps an exponent. -/
def readMagnitude (cs : List Char) : Option Float :=
  let lower := cs.map Char.toLower
  if lower = "inf".toList || lower = "infinity".toList then some (1.0 / 0.0)
  else if lower = "nan".toList then some (0.0 / 0.0)
  else
    let head := cs.takeWhile fun c => c ≠ 'e' && c ≠ 'E'
    match cs.dropWhile fun c => c ≠ 'e' && c ≠ 'E' with
    | [] => readPlain head
    | _ :: tail => do
        let (m, places) ← mantissa? head
        let e ← exponent? tail
        return scale m (e - places)

/-- A number with an optional sign. -/
def readSigned : List Char → Option Float
  | '-' :: rest => (readMagnitude rest).map fun x => -x
  | '+' :: rest => readMagnitude rest
  | cs => readMagnitude cs

end Pausepoint.Decimal
