import LongTrader.Indicators.Dema
import Mathlib.Algebra.Order.Field.Rat

/-! The indicators over exact rationals, where no operator overflows. -/

namespace LongTrader.Indicators

/-- The arithmetic of the rationals; only a division by zero panics. -/
def Arithmetic.rational : Arithmetic ℚ where
  ofNat n := n
  add first second := some (first + second)
  sub first second := some (first - second)
  mul first second := some (first * second)
  div first second := if second = 0 then none else some (first / second)
  abs value := |value|
  lt first second := decide (first < second)

section Rational

variable (first second : ℚ)

@[simp] theorem rational_ofNat (number : Nat) : Arithmetic.rational.ofNat number = number := rfl

@[simp] theorem rational_add : Arithmetic.rational.add first second = some (first + second) := rfl

@[simp] theorem rational_sub : Arithmetic.rational.sub first second = some (first - second) := rfl

@[simp] theorem rational_mul : Arithmetic.rational.mul first second = some (first * second) := rfl

@[simp] theorem rational_lt : Arithmetic.rational.lt first second = decide (first < second) := rfl

theorem rational_div {divisor : ℚ} (nonzero : divisor ≠ 0) :
    Arithmetic.rational.div first divisor = some (first / divisor) := if_neg nonzero

@[simp] theorem rational_max : Arithmetic.rational.max first second = max first second := by
  rw [Arithmetic.max, rational_lt]
  by_cases below : second < first
  · rw [if_pos (decide_eq_true below), max_eq_left below.le]
  · rw [if_neg (by simpa using below), max_eq_right (not_lt.mp below)]

end Rational

/-- The prices of a bar that the indicators read. -/
structure Bar where
  high : ℚ
  low : ℚ
  close : ℚ

/-- A bar that closes within its range. -/
structure Bar.WellFormed (bar : Bar) : Prop where
  low_le : bar.low ≤ bar.close
  le_high : bar.close ≤ bar.high

/-- The range of a bar, widened by the close before it. -/
def Bar.trueRange (bar : Bar) (prevClose : ℚ) : ℚ :=
  max (max (bar.high - bar.low) |bar.high - prevClose|) |bar.low - prevClose|

/-- The loop of `decimal_sqrt`, with the rounds that are left. -/
def newton (value : ℚ) : Nat → ℚ → ℚ
  | 0, x => x
  | rounds + 1, x =>
    if x = 0 then x
    else
      let next := (x + value / x) / 2
      if next ≤ 0 then x
      else if |next - x| < 1 / 10 ^ 8 then next
      else newton value rounds next

def decimalSqrt (value : ℚ) : ℚ :=
  if value ≤ 0 then 0 else newton value 64 (if 1 ≤ value then value / 2 else 1)

end LongTrader.Indicators
