/-
**The shortest text of a double.**

A double is printed with the fewest decimal digits that read back as the same double; of several
decimals with that many digits the nearest is taken.  The search goes over the decimal grids of one
digit, two digits and so on: on each grid only the two neighbours of the double can lie closer to it
than any other, so they alone are tested against the interval of the numbers that round to it.

Main definitions:

* `PlainC.Double.Interval` — a double and the numbers that round to it, over one denominator;
* `PlainC.Double.shortest` — the fewest digits, as a whole number and a power of ten;
* `PlainC.Double.Layout` — where positional notation ends and how exponents are written;
* `PlainC.Double.text` — the text of a double.

Main results:

* `PlainC.Double.text_tenth`, `PlainC.Double.text_least` — the texts of the double nearest to one
  tenth and of the least positive double.
-/

import PlainC.Number.Double

set_option relaxedAutoImplicit false
set_option autoImplicit false

namespace PlainC.Double

/-! ### The interval of a double -/

/-- A positive number `value / den` with the bounds `low / den` and `high / den` of the numbers
that round to it; `closed` says whether the bounds do too. -/
structure Interval where
  value : Nat
  low : Nat
  high : Nat
  den : Nat
  closed : Bool
deriving Repr, DecidableEq

/-- The interval of `m * 2 ^ q`.  Its bounds lie half-way to the two neighbouring doubles; the lower
neighbour of a power of two is nearer than the upper one.  A tie goes to the even significand, so
the bounds belong to the interval of an even one. -/
def interval (m : Nat) (q : Int) : Interval :=
  let below := if m = Nat.pow 2 52 && leastExponent < q then 1 else 2
  -- in quarters of the last place the number and both bounds are whole
  let quarter := q - 2
  let scale := Nat.pow 2 quarter.toNat
  ⟨4 * m * scale, (4 * m - below) * scale, (4 * m + 2) * scale, Nat.pow 2 (-quarter).toNat,
    m % 2 = 0⟩

/-- Whether the decimal `digits * 10 ^ power` lies in the interval. -/
def Interval.holds (i : Interval) (digits : Nat) (power : Int) : Bool :=
  let point := digits * Nat.pow 10 power.toNat * i.den
  let scale := Nat.pow 10 (-power).toNat
  if i.closed then i.low * scale ≤ point && point ≤ i.high * scale
  else i.low * scale < point && point < i.high * scale

/-! ### The search -/

/-- The least `k` with `value / den < 10 ^ k`. -/
def Interval.magnitude (i : Interval) : Int :=
  -- 30103 / 100000 is the logarithm of two to base ten, to within the last place
  let guess := ((Nat.log2 i.value : Int) - Nat.log2 i.den) * 30103 / 100000
  let under (k : Int) : Bool := i.value * Nat.pow 10 (-k).toNat < Nat.pow 10 k.toNat * i.den
  if under guess then guess else if under (guess + 1) then guess + 1 else guess + 2

/-- The nearer one of the two neighbours of the number on the grid of the multiples of
`10 ^ power`, among those in the interval; on a tie the even one. -/
def Interval.neighbour? (i : Interval) (power : Int) : Option Nat :=
  let num := i.value * Nat.pow 10 (-power).toNat
  let den := i.den * Nat.pow 10 power.toNat
  let lower := num / den
  let nearest := divideEven num den
  let other := if nearest = lower then lower + 1 else lower
  if i.holds nearest power then some nearest
  else if i.holds other power then some other
  else none

/-- The first of the grids of `count` digits and more that has a point in the interval, with that
point; `more` bounds the number of further grids. -/
def Interval.search (i : Interval) (magnitude : Int) (count : Nat) : Nat → Nat × Int
  | 0 => (divideEven i.value i.den, 0)
  | more + 1 =>
      let power := magnitude - count
      match i.neighbour? power with
      | some digits => (digits, power)
      | none => i.search magnitude (count + 1) more

/-- Moves trailing zeros from the digits into the power of ten. -/
def strip : Nat → Nat × Int → Nat × Int
  | 0, pair => pair
  | fuel + 1, (digits, power) =>
      if digits ≠ 0 && digits % 10 = 0 then strip fuel (digits / 10, power + 1) else (digits, power)

/-- The fewest digits that read back as `m * 2 ^ q`, as a whole number and a power of ten.
Seventeen digits always suffice. -/
def shortest (m : Nat) (q : Int) : Nat × Int :=
  let i := interval m q
  strip 20 (i.search i.magnitude 1 17)

/-! ### Notation -/

/-- How the digits of a double are laid out: numbers from `10 ^ positionalFrom` up to, but not
including, `10 ^ positionalTo` are written without an exponent; an exponent has at least
`exponentWidth` digits. -/
structure Layout where
  positionalFrom : Int
  positionalTo : Int
  exponentWidth : Nat
deriving Repr, DecidableEq

/-- Numbers are written without an exponent from one ten-thousandth up to 10 ^ 16; an exponent has
a sign and at least two digits. -/
def layout : Layout := ⟨-4, 16, 2⟩

/-- The digits `digits`, of which `point` stand before the decimal point, in positional notation;
there is a digit on both sides of the point. -/
def positional (digits : List Char) (point : Int) : List Char :=
  if point ≤ 0 then '0' :: '.' :: List.replicate (-point).toNat '0' ++ digits
  else
    let before := point.toNat
    if before < digits.length then digits.take before ++ '.' :: digits.drop before
    else digits ++ List.replicate (before - digits.length) '0' ++ ['.', '0']

/-- The digits in scientific notation: one digit before the point, the exponent after `e`. -/
def scientific (width : Nat) (digits : List Char) (exponent : Int) : List Char :=
  let mantissa := match digits with
    | d :: e :: rest => d :: '.' :: e :: rest
    | short => short
  let places := Nat.toDigits 10 exponent.natAbs
  mantissa ++ 'e' :: (if exponent < 0 then '-' else '+') ::
    List.replicate (width - places.length) '0' ++ places

/-- The text of a positive finite number given by its digits and a power of ten. -/
def Layout.render (l : Layout) (number : Nat × Int) : List Char :=
  let digits := Nat.toDigits 10 number.1
  let point := number.2 + digits.length
  if l.positionalFrom < point && point ≤ l.positionalTo then positional digits point
  else scientific l.exponentWidth digits (point - 1)

/-- The text of a double: the shortest digits that read back as it. -/
def text : Double → String
  | .nan => "nan"
  | .infinite negative => if negative then "-inf" else "inf"
  | .finite negative m q =>
      let body := if m = 0 then ['0', '.', '0'] else layout.render (shortest m q)
      String.ofList (if negative then '-' :: body else body)

/-- The text of the double nearest to one tenth. -/
theorem text_tenth : text (ofDecimal false 1 (-1)) = "0.1" := by decide +kernel

/-- The text of the least positive double. -/
theorem text_least : text (.finite false 1 leastExponent) = "5e-324" := by decide +kernel

end PlainC.Double
