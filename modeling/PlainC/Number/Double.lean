/-
**Floating literals as binary numbers.**

A floating literal stands for the double nearest to the decimal number it spells.  A finite double
is a sign, a significand and a power of two; the reading of a decimal number is exact arithmetic on
natural numbers with one rounding, to the nearest double and on a tie to the even significand.

Main definitions:

* `PlainC.Double` — a double: a signed significand times a power of two, an infinity, or no number;
* `PlainC.Double.toInt?` — the integer that a double is equal to;
* `PlainC.Double.divideEven` — a quotient rounded to the nearest integer, a tie to the even one;
* `PlainC.Double.ofRatio` — the double nearest to a quotient of natural numbers;
* `PlainC.Double.ofDecimal` — the double nearest to a decimal number.

Main results:

* `PlainC.Double.divideEven_exact` — a quotient that needs no rounding is not rounded;
* `PlainC.Double.divideEven_error` — the rounding error is at most half a unit.
-/

set_option relaxedAutoImplicit false
set_option autoImplicit false

namespace PlainC

/-- A double.  A finite one is `significand * 2 ^ exponent`, with the sign; the significand has 53
bits, or fewer at the least exponent, -1074. -/
inductive Double where
  | finite (negative : Bool) (significand : Nat) (exponent : Int)
  | infinite (negative : Bool)
  | nan
deriving Repr, DecidableEq

namespace Double

/-- The least exponent of a finite double. -/
def leastExponent : Int := -1074

/-- The greatest exponent of a finite double. -/
def greatestExponent : Int := 971

/-- Zero, with a sign. -/
def zero (negative : Bool) : Double := .finite negative 0 leastExponent

/-- The same number with the opposite sign. -/
def negate : Double → Double
  | .finite negative m q => .finite (!negative) m q
  | .infinite negative => .infinite (!negative)
  | .nan => .nan

/-- The integer that a double is equal to; `none` for one that is no integer. -/
def toInt? : Double → Option Int
  | .finite negative m q =>
      let sign : Int := if negative then -1 else 1
      if 0 ≤ q then some (sign * (m * Nat.pow 2 q.toNat))
      else if m % Nat.pow 2 (-q).toNat = 0 then some (sign * (m / Nat.pow 2 (-q).toNat))
      else none
  | .infinite _ | .nan => none

/-! ### Rounding a quotient -/

/-- The integer nearest to `num / den`, on a tie the even one. -/
def divideEven (num den : Nat) : Nat :=
  let quotient := num / den
  let twice := 2 * (num % den)
  if twice < den || (twice = den && quotient % 2 = 0) then quotient else quotient + 1

/-- A quotient that needs no rounding is not rounded. -/
theorem divideEven_exact (n den : Nat) (h : 0 < den) : divideEven (n * den) den = n := by
  simp [divideEven, h]

/-- The rounding error is at most half a unit. -/
theorem divideEven_error (num den : Nat) (h : 0 < den) :
    2 * (divideEven num den * den) ≤ 2 * num + den ∧
      2 * num ≤ 2 * (divideEven num den * den) + den := by
  have split : den * (num / den) + num % den = num := Nat.div_add_mod num den
  have small : num % den < den := Nat.mod_lt num h
  have comm : num / den * den = den * (num / den) := Nat.mul_comm ..
  have succ : (num / den + 1) * den = den * (num / den) + den := by
    rw [Nat.succ_mul, comm]
  simp only [divideEven]
  split
  · -- rounded down: the remainder is at most half of the divisor
    rename_i low
    rw [comm]
    simp only [Bool.or_eq_true, decide_eq_true_eq, Bool.and_eq_true] at low
    omega
  · -- rounded up: the remainder is at least half of it
    rename_i high
    rw [succ]
    simp only [Bool.or_eq_true, decide_eq_true_eq, Bool.and_eq_true, not_or] at high
    omega

/-- The integer nearest to `num / den * 2 ^ (-q)`. -/
def significandAt (num den : Nat) (q : Int) : Nat :=
  if 0 ≤ q then divideEven num (den * Nat.pow 2 q.toNat)
  else divideEven (num * Nat.pow 2 (-q).toNat) den

/-! ### From numbers to doubles -/

/-- The exponent at which the significand of `num / den` has 53 bits, or the least exponent if that
is greater. -/
def exponentOf (num den : Nat) : Int :=
  -- the leading powers of two give the exponent, or one more than it
  let guess : Int := (Nat.log2 num : Int) - Nat.log2 den - 52
  let floor :=
    if 0 ≤ guess then num / (den * Nat.pow 2 guess.toNat)
    else num * Nat.pow 2 (-guess).toNat / den
  max leastExponent (if floor < Nat.pow 2 52 then guess - 1 else guess)

/-- The double nearest to `num / den`. -/
def ofRatio (negative : Bool) (num den : Nat) : Double :=
  if num = 0 then zero negative
  else
    let q := exponentOf num den
    let m := significandAt num den q
    -- rounding up can carry into one more bit
    let (m, q) := if m = Nat.pow 2 53 then (Nat.pow 2 52, q + 1) else (m, q)
    if greatestExponent < q then .infinite negative else .finite negative m q

/-- The double nearest to `digits * 10 ^ exponent`.  Beyond four hundred decimal places on either
side of the point nothing but infinity and zero is left, whatever the digits. -/
def ofDecimal (negative : Bool) (digits : Nat) (exponent : Int) : Double :=
  if digits = 0 then zero negative
  else if 400 < exponent then .infinite negative
  else if exponent + Nat.log2 digits < -400 then zero negative
  else if 0 ≤ exponent then ofRatio negative (digits * Nat.pow 10 exponent.toNat) 1
  else ofRatio negative digits (Nat.pow 10 (-exponent).toNat)

/-- Reading starts at one: `1.0` is 2 ^ 52 units of 2 ^ (-52). -/
theorem ofDecimal_one : ofDecimal false 1 0 = .finite false (Nat.pow 2 52) (-52) := by
  decide +kernel

end Double

end PlainC
