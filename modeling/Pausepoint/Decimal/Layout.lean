import Pausepoint.Decimal.Shortest
import Pausepoint.Text.Numeral

/-!
# Writing floating-point numbers

A number is written from its shortest decimal. What remains open is the form: which exponents are
written positionally, whether a whole number keeps a decimal, how an exponent looks, and what stands for
the values that are no numbers. Those choices are one record, `Layout`, and there are two of them:

* `Layout.display` — for people: always positional, no decimals on whole numbers;
* `Layout.document` — for documents: positional in the middle range with at least one decimal, an
  exponent outside it, and `null` for what no document can hold.
-/

namespace Pausepoint.Decimal

/-- The choices of a written form of floating-point numbers. -/
structure Layout where
  /-- Is a number whose leading digit has this exponent written without an exponent? -/
  positional : Int → Bool
  /-- What is appended to a whole number in positional form. -/
  wholeSuffix : String
  /-- What stands before a non-negative exponent. -/
  exponentSign : String
  /-- Which of two equally near decimals is taken. -/
  tie : Tie
  /-- The text of a value that is no number. -/
  nan : String
  /-- The text of positive infinity. -/
  infinity : String
  negativeInfinity : String

/-- The form shown to people. -/
def Layout.display : Layout where
  positional _ := true
  wholeSuffix := ""
  exponentSign := ""
  tie := .away
  nan := "NaN"
  infinity := "inf"
  negativeInfinity := "-inf"

/-- The form used in documents. -/
def Layout.document : Layout where
  positional e := decide (-5 ≤ e) && decide (e < 16)
  wholeSuffix := ".0"
  exponentSign := "+"
  tie := .even
  nan := "null"
  infinity := "null"
  negativeInfinity := "null"

/-- A double, taken apart. -/
inductive Binary64
  | nan
  /-- Infinity, with its sign. -/
  | infinite (negative : Bool)
  | zero (negative : Bool)
  /-- Any other value: its sign and its absolute value. -/
  | finite (negative : Bool) (magnitude : Dyadic)
  deriving Repr, DecidableEq

/-- The number of fractions that a double can have: two to the power 52. -/
def fractionCount : Nat := 4503599627370496

/-- The number of exponents that a double can have: two to the power 11. -/
def exponentCount : Nat := 2048

/-- Takes the bits of a double apart: a sign, eleven bits of exponent and fifty-two of fraction. -/
def Binary64.ofBits (bits : UInt64) : Binary64 :=
  let n := bits.toNat
  let negative := decide (exponentCount * fractionCount ≤ n)
  let exponent : Nat := n / fractionCount % exponentCount
  let fraction : Nat := n % fractionCount
  if exponent = 2047 then
    if fraction = 0 then .infinite negative else .nan
  else if exponent = 0 then
    if fraction = 0 then .zero negative else .finite negative (.ofParts fraction (-1074) false)
  else
    .finite negative
      (.ofParts (fractionCount + fraction) ((exponent : Int) - 1075)
        (decide (fraction = 0 ∧ 1 < exponent)))

/-- The digits `ds` of a number whose leading digit has exponent `e`, in positional form. -/
def positionalText (wholeSuffix : String) (ds : List Char) (e : Int) : List Char :=
  if e < 0 then
    '0' :: '.' :: List.replicate (-e - 1).toNat '0' ++ ds
  else
    let whole := e.toNat + 1
    if ds.length ≤ whole then
      ds ++ List.replicate (whole - ds.length) '0' ++ wholeSuffix.toList
    else
      ds.take whole ++ '.' :: ds.drop whole

/-- The same with an exponent: one digit before the point, and none after it if there is only one. -/
def exponentText (exponentSign : String) (ds : List Char) (e : Int) : List Char :=
  let mantissa := match ds with
    | [] => []
    | [d] => [d]
    | d :: rest => d :: '.' :: rest
  let exponent := if e < 0 then '-' :: Text.digits e.natAbs
    else exponentSign.toList ++ Text.digits e.natAbs
  mantissa ++ 'e' :: exponent

/-- The digits and the exponent of the leading one, in the chosen form. -/
def Layout.magnitudeText (layout : Layout) (s : Scientific) : List Char :=
  let ds := Text.digits s.digits
  let e : Int := s.exponent + (ds.length - 1 : Nat)
  if layout.positional e then positionalText layout.wholeSuffix ds e
  else exponentText layout.exponentSign ds e

/-- A minus sign in front of a negative number. -/
def signed (negative : Bool) (text : List Char) : String :=
  String.ofList (if negative then '-' :: text else text)

/-- A double in the chosen form. -/
def Layout.text (layout : Layout) (x : Float) : String :=
  match Binary64.ofBits x.toBits with
  | .nan => layout.nan
  | .infinite false => layout.infinity
  | .infinite true => layout.negativeInfinity
  | .zero negative => signed negative (positionalText layout.wholeSuffix ['0'] 0)
  | .finite negative magnitude =>
      signed negative (layout.magnitudeText (shortest layout.tie magnitude))

end Pausepoint.Decimal
