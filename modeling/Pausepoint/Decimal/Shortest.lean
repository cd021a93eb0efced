/-!
# The shortest decimal of a binary number

A finite double is `m · 2^q` with natural `m`. The reals that round to it form an interval around it,
which holds its ends exactly when `m` is even. Among the decimals in that interval the shortest is
wanted: with the fewest digits, and of those the one nearest to the value.

On the grid of the multiples of `10^k` it is enough to look at the two neighbours of the value: if any
point of the grid lies in the interval, so does one of them. The grids are tried from the coarsest one
that can tell the value from zero, one more digit at a time; seventeen digits always suffice.

* `Dyadic` — the value and the interval that rounds to it, in quarters of a unit;
* `Grid` — comparison of such a value with multiples of a power of ten, in natural numbers;
* `shortest` — digits `d` and exponent `k` of the answer `d · 10^k`.
-/

namespace Pausepoint.Decimal

/-- Which neighbour is taken when both are equally near. -/
inductive Tie
  /-- The one farther from zero. -/
  | away
  /-- The one whose last digit is even. -/
  | even
  deriving Repr, DecidableEq

/-- A positive decimal `digits · 10^exponent`. -/
structure Scientific where
  /-- The digits, read as one number. -/
  digits : Nat
  /-- The power of ten they are multiplied by. -/
  exponent : Int
  deriving Repr, DecidableEq

/-- A positive value `unit · 2^power` and the interval of reals that round to it. -/
structure Dyadic where
  /-- The value, in units. -/
  unit : Nat
  /-- The lower end of the interval, in units. -/
  low : Nat
  /-- The upper end of the interval, in units. -/
  high : Nat
  /-- The power of two of one unit. -/
  power : Int
  /-- Do the ends of the interval belong to it? -/
  closed : Bool
  deriving Repr, DecidableEq

/-- The value with significand `m` and exponent `q`. At the lower end of a binade the next double below
is only half as far away as the next one above. -/
def Dyadic.ofParts (m : Nat) (q : Int) (binadeStart : Bool) : Dyadic :=
  { unit := 4 * m
    low := 4 * m - (if binadeStart then 1 else 2)
    high := 4 * m + 2
    power := q - 2
    closed := m % 2 = 0 }

/-- Factors that bring multiples of `2^power` and of `10^exponent` to a common measure: `u · 2^power` is
to `d · 10^exponent` as `u · units` is to `d · tens`. -/
structure Grid where
  /-- The factor of a count of binary units. -/
  units : Nat
  /-- The factor of a count of decimal units. -/
  tens : Nat
  deriving Repr, DecidableEq

/-- The common measure of the units `2^power` and `10^exponent`. -/
def Grid.of (power exponent : Int) : Grid :=
  { units := Nat.pow 2 power.toNat * Nat.pow 10 (-exponent).toNat
    tens := Nat.pow 2 (-power).toNat * Nat.pow 10 exponent.toNat }

/-- Does `d` times the decimal unit round to the value? -/
def Grid.holds (g : Grid) (v : Dyadic) (d : Nat) : Bool :=
  let x := d * g.tens
  if v.closed then decide (v.low * g.units ≤ x) && decide (x ≤ v.high * g.units)
  else decide (v.low * g.units < x) && decide (x < v.high * g.units)

/-- The point of the grid that is wanted, if any point of it rounds to the value. -/
def Grid.pick (g : Grid) (tie : Tie) (v : Dyadic) : Option Nat :=
  let below := v.unit * g.units / g.tens
  let above := below + 1
  let gapBelow := v.unit * g.units - below * g.tens
  let gapAbove := above * g.tens - v.unit * g.units
  match g.holds v below && decide (0 < below), g.holds v above with
  | true, true =>
      if gapBelow < gapAbove then some below
      else if gapAbove < gapBelow then some above
      else match tie with
        | .away => some above
        | .even => if below % 2 = 0 then some below else some above
  | true, false => some below
  | false, true => some above
  | false, false => none

/-- The exponent of the leading digit of `unit · 2^power`: the `e` with `10^e ≤ value < 10^(e+1)`. -/
def leadingExponent (v : Dyadic) : Int :=
  let top := v.unit * Nat.pow 2 v.power.toNat
  let bottom := Nat.pow 2 (-v.power).toNat
  let guess : Int := (Nat.toDigits 10 top).length - (Nat.toDigits 10 bottom).length
  if bottom * Nat.pow 10 guess.toNat ≤ top * Nat.pow 10 (-guess).toNat then guess else guess - 1

/-- Tries the grid with exponent `exponent` and then `more` finer ones. -/
def searchGrids (tie : Tie) (v : Dyadic) : Int → Nat → Scientific
  | exponent, 0 => ⟨(Grid.of v.power exponent).pick tie v |>.getD 0, exponent⟩
  | exponent, more + 1 =>
      match (Grid.of v.power exponent).pick tie v with
      | some d => ⟨d, exponent⟩
      | none => searchGrids tie v (exponent - 1) more

/-- Moves zeros at the end of the digits into the exponent. -/
def Scientific.normalize (s : Scientific) : Nat → Scientific
  | 0 => s
  | n + 1 =>
      if s.digits ≠ 0 ∧ s.digits % 10 = 0 then
        normalize ⟨s.digits / 10, s.exponent + 1⟩ n
      else s

/-- The shortest decimal that rounds to the value. -/
def shortest (tie : Tie) (v : Dyadic) : Scientific :=
  (searchGrids tie v (leadingExponent v) 17).normalize 20

end Pausepoint.Decimal
