import LongTrader.Indicators.Rational
import Mathlib.Algebra.Order.Field.Rat
import Mathlib.Data.Rat.Floor

/-! How the operators of a decimal type round, and the arithmetic of 96-bit decimals: every result is
rounded to the digits that it can keep, and a decimal is taken for the number that it denotes. -/

namespace LongTrader.Indicators

section Rounding

variable {P : Type} [LinearOrder P] {value : P → ℚ} {exact : ℚ} {result : Option P}

/-- A result that is rounded: no other decimal lies between it and the exact one, and there is one unless
the exact one is beyond all decimals. -/
structure Nearest (value : P → ℚ) (exact : ℚ) (result : Option P) : Prop where
  below : ∀ near ∈ result, ∀ decimal, value decimal ≤ exact → decimal ≤ near
  above : ∀ near ∈ result, ∀ decimal, exact ≤ value decimal → near ≤ decimal
  defined : ∀ low high, value low ≤ exact → exact ≤ value high → result.isSome

/-- What a decimal can hold is not rounded. -/
theorem Nearest.eq (nearest : Nearest value exact result) {decimal : P} (holds : value decimal = exact) :
    result = some decimal := by
  obtain ⟨near, found⟩ := Option.isSome_iff_exists.mp (nearest.defined _ _ holds.le holds.ge)
  rw [found]
  exact congrArg some (le_antisymm (nearest.above near found decimal holds.ge)
    (nearest.below near found decimal holds.le))

/-- The operators round, with what a decimal denotes. -/
structure Arithmetic.Rounds [Neg P] (arith : Arithmetic P) (value : P → ℚ) : Prop where
  strictMono : StrictMono value
  zero : value (arith.ofNat 0) = 0
  one : value (arith.ofNat 1) = 1
  neg : ∀ decimal, value (-decimal) = -value decimal
  add : ∀ first second, Nearest value (value first + value second) (arith.add first second)
  mul : ∀ first second, Nearest value (value first * value second) (arith.mul first second)

/-- A result that is not rounded. -/
theorem Nearest.of_eq (increasing : StrictMono value) {decimal : P} (holds : value decimal = exact) :
    Nearest value exact (some decimal) where
  below := by
    rintro _ ⟨⟩ other under
    exact increasing.le_iff_le.mp (under.trans holds.ge)
  above := by
    rintro _ ⟨⟩ other above
    exact increasing.le_iff_le.mp (holds.le.trans above)
  defined _ _ _ _ := rfl

end Rounding

theorem rational_rounds : Arithmetic.rational.Rounds id where
  strictMono := strictMono_id
  zero := Nat.cast_zero
  one := Nat.cast_one
  neg _ := rfl
  add _ _ := .of_eq strictMono_id rfl
  mul _ _ := .of_eq strictMono_id rfl

/-- The nearest integer, halves to the even one. -/
def nearestEven (number : ℚ) : Int :=
  if number - number.floor < 1 / 2 then number.floor
  else if 1 / 2 < number - number.floor then number.floor + 1
  else if number.floor % 2 = 0 then number.floor else number.floor + 1

/-- A number with at most so many digits behind the point, as many as a coefficient of 96 bits leaves room
for; `none` is an overflow. -/
def roundedTo (number : ℚ) : Nat → Option ℚ
  | 0 => if (nearestEven number).natAbs < 2 ^ 96 then some (nearestEven number) else none
  | scale + 1 =>
    let coefficient := nearestEven (number * 10 ^ (scale + 1))
    if coefficient.natAbs < 2 ^ 96 then some (coefficient / 10 ^ (scale + 1)) else roundedTo number scale

/-- What an operator of `rust_decimal` makes of an exact result. -/
def rounded (number : ℚ) : Option ℚ := roundedTo number 28

/-- The arithmetic of `rust_decimal`. -/
def Arithmetic.rounded : Arithmetic ℚ where
  ofNat n := n
  add first second := Indicators.rounded (first + second)
  sub first second := Indicators.rounded (first - second)
  mul first second := Indicators.rounded (first * second)
  div first second := if second = 0 then none else Indicators.rounded (first / second)
  abs value := |value|
  lt first second := decide (first < second)

/-- A third has 28 threes. -/
example : Arithmetic.rounded.div 1 3 = some (3333333333333333333333333333 / 10 ^ 28) := by decide +kernel

end LongTrader.Indicators
