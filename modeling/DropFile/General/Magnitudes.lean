import Mathlib.Algebra.Group.Nat.Defs
import Mathlib.Data.Nat.Log

/-!
# Numbers in units

The units are the powers of a base up to a largest one.  A number is shown in
the largest unit that is not above it, rounded down.
-/

namespace DropFile.General.Magnitudes

variable {base : Nat} (top number : Nat)

/-- The exponent of the unit for a number. -/
def magnitude (base top number : Nat) : Nat :=
  min (Nat.log base number) top

/-- The unit is not above the number. -/
theorem pow_magnitude_le
    {number : Nat}
    (positive : number ≠ 0) :
    base ^ magnitude base top number ≤ number :=
  Nat.pow_le_of_le_log positive (Nat.min_le_left _ _)

/-- No larger unit is at most the number. -/
theorem le_magnitude
    (largeBase : 1 < base)
    {exponent : Nat}
    (isUnit : exponent ≤ top)
    (notAbove : base ^ exponent ≤ number) :
    exponent ≤ magnitude base top number :=
  Nat.le_min.2 ⟨Nat.le_log_of_pow_le largeBase notAbove, isUnit⟩

/-- Rounding down leaves less than one unit. -/
theorem rounded_down
    {unit : Nat}
    (positive : 0 < unit) :
    number / unit * unit ≤ number ∧ number < (number / unit + 1) * unit := by
  constructor
  · exact Nat.div_mul_le_self number unit
  · exact (Nat.div_lt_iff_lt_mul positive).1 (Nat.lt_succ_self _)

/--
A logarithm that is divided by a step is the exponent of a power of the step.
-/
theorem log_div_step (step : Nat) :
    Nat.log base number / step = Nat.log (base ^ step) number :=
  (Nat.log_pow_left base step number).symm

end DropFile.General.Magnitudes
