/-
**Integers in base ten.**

The conversion between an integer and its digits in base ten takes time that grows faster than the
number of digits, so it is refused beyond a fixed number of them, in both directions.  A base that
is a power of two has no such limit.

Main definitions:

* `PlainC.maxDigits` — the greatest number of digits that is converted;
* `PlainC.isConvertible` — whether an integer has no more digits than that.

Main results:

* `PlainC.isConvertible_iff` — these are the integers below a power of ten;
* `PlainC.not_isConvertible_pow` — that power is the least one that is not convertible.
-/

set_option relaxedAutoImplicit false
set_option autoImplicit false

namespace PlainC

/-- The greatest number of decimal digits that is converted to an integer or from one. -/
def maxDigits : Nat := 4300

/-- Whether an integer has no more decimal digits than are converted; a sign does not count. -/
def isConvertible (value : Int) : Bool := (Nat.toDigits 10 value.natAbs).length ≤ maxDigits

/-- The convertible integers are those below a power of ten. -/
theorem isConvertible_iff {value : Int} :
    isConvertible value ↔ value.natAbs < Nat.pow 10 maxDigits := by
  rw [isConvertible, decide_eq_true_iff]
  have positive : 0 < maxDigits := by decide
  -- with the limit a variable, nothing tries to evaluate the power
  generalize maxDigits = digits at positive ⊢
  exact Nat.length_toDigits_le_iff (by decide) positive

/-- The least natural number that is not convertible. -/
theorem not_isConvertible_pow : ¬ isConvertible (Nat.pow 10 maxDigits) := by
  rw [isConvertible_iff, Int.natAbs_natCast]
  exact Nat.lt_irrefl _

end PlainC
