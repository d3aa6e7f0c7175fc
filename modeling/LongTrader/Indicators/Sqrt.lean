import LongTrader.Indicators.Rational
import LongTrader.Newton
import Mathlib.Analysis.Real.Sqrt

/-! How the loop of `decimal_sqrt` ends, and how far from the root. -/

namespace LongTrader.Indicators

open Newton (step)

/-- How the loop of `decimal_sqrt` ends: at a guard, at its tolerance test, or after its last round. -/
inductive SqrtExit where
  | bailed (x : ℚ)
  | converged (x : ℚ)
  | exhausted (x : ℚ)

def SqrtExit.answer : SqrtExit → ℚ
  | .bailed x | .converged x | .exhausted x => x

/-- The loop of `decimal_sqrt`, with the exit that it takes. -/
def newtonExit (value : ℚ) : Nat → ℚ → SqrtExit
  | 0, x => .exhausted x
  | rounds + 1, x =>
    if x = 0 then .bailed x
    else
      let next := (x + value / x) / 2
      if next ≤ 0 then .bailed x
      else if |next - x| < 1 / 10 ^ 8 then .converged next
      else newtonExit value rounds next

/-- The first iterate of `decimal_sqrt`. -/
def sqrtSeed (value : ℚ) : ℚ := if 1 ≤ value then value / 2 else 1

theorem newton_eq_answer (value : ℚ) (rounds : Nat) (x : ℚ) :
    newton value rounds x = (newtonExit value rounds x).answer := by
  induction rounds generalizing x with
  | zero => rfl
  | succ rounds ih =>
    simp only [newton, newtonExit, apply_ite SqrtExit.answer, ih]
    rfl

theorem decimalSqrt_eq_answer {value : ℚ} (positive : 0 < value) :
    decimalSqrt value = (newtonExit value 64 (sqrtSeed value)).answer := by
  rw [decimalSqrt, if_neg positive.not_ge, newton_eq_answer, sqrtSeed]

/-- The tolerance test is the only exit of a round that starts from a positive iterate. -/
theorem newtonExit_succ {value x : ℚ} (positive : 0 < value) (above : 0 < x) (rounds : Nat) :
    newtonExit value (rounds + 1) x =
      if |step value x - x| < 1 / 10 ^ 8 then .converged (step value x)
      else newtonExit value rounds (step value x) := by
  have next : 0 < (x + value / x) / 2 := by positivity
  rw [newtonExit, if_neg above.ne']
  exact if_neg next.not_ge

/-- A round that passes the test is reached, unless one before it passes. -/
theorem newtonExit_converges {value x : ℚ} (positive : 0 < value) (above : 0 < x) {late rounds : Nat}
    (room : late < rounds) (close : |(step value)^[late + 1] x - (step value)^[late] x| < 1 / 10 ^ 8) :
    ∃ before, 0 < before ∧ |step value before - before| < 1 / 10 ^ 8 ∧
      newtonExit value rounds x = .converged (step value before) := by
  induction late generalizing x rounds with
  | zero =>
    obtain ⟨rounds, rfl⟩ := Nat.exists_eq_succ_of_ne_zero room.ne_bot
    exact ⟨x, above, close, by rw [newtonExit_succ positive above]; exact if_pos close⟩
  | succ late ih =>
    obtain ⟨rounds, rfl⟩ := Nat.exists_eq_succ_of_ne_zero (Nat.ne_zero_of_lt room)
    by_cases passes : |step value x - x| < 1 / 10 ^ 8
    · exact ⟨x, above, passes, by rw [newtonExit_succ positive above, if_pos passes]⟩
    · rw [newtonExit_succ positive above, if_neg passes]
      have next : 0 < step value x := by unfold step; positivity
      exact ih next (Nat.lt_of_succ_lt_succ room) close

section Root

/-- The tolerance test, as the reals see it. -/
theorem cast_close (first second : ℚ) :
    |(first : ℝ) - second| < 1 / 10 ^ 8 ↔ |first - second| < 1 / 10 ^ 8 := by
  have tolerance : ((1 / 10 ^ 8 : ℚ) : ℝ) = 1 / 10 ^ 8 := by norm_num
  rw [← tolerance, ← Rat.cast_sub, ← Rat.cast_abs, Rat.cast_lt]

variable {value : ℚ} (positive : 0 < value)

include positive

theorem root_pos : 0 < √(value : ℝ) := Real.sqrt_pos.mpr (by exact_mod_cast positive)

theorem cast_iterate (x : ℚ) (rounds : Nat) :
    (((step value)^[rounds] x : ℚ) : ℝ) = (step (√(value : ℝ) * √(value : ℝ)))^[rounds] x := by
  rw [Real.mul_self_sqrt (by exact_mod_cast positive.le)]
  exact Newton.map_iterate (Rat.castHom ℝ) value x rounds

theorem cast_step (x : ℚ) :
    ((step value x : ℚ) : ℝ) = step (√(value : ℝ) * √(value : ℝ)) x := cast_iterate positive x 1

/-- What passes the tolerance test is within the tolerance of the root. -/
theorem near_root {before : ℚ} (above : 0 < before)
    (close : |step value before - before| < 1 / 10 ^ 8) :
    |((step value before : ℚ) : ℝ) - √(value : ℝ)| < 1 / 10 ^ 8 := by
  rw [← cast_close, cast_step positive] at close
  rw [cast_step positive]
  exact (Newton.error_le_travelled (root_pos positive) (by exact_mod_cast above)).trans_lt close

/-- An iterate above the root and near it passes the test. -/
theorem passes_of_near {x : ℚ} (above : √(value : ℝ) ≤ x)
    (near : (x : ℝ) - √(value : ℝ) < 1 / 10 ^ 8) : |step value x - x| < 1 / 10 ^ 8 := by
  have rooted := root_pos positive
  have lower : √(value : ℝ) ≤ Newton.step (√(value : ℝ) * √(value : ℝ)) x :=
    Newton.root_le_step (rooted.trans_le above)
  have upper := Newton.error_halves rooted above
  rw [← cast_close, cast_step positive, abs_lt]
  constructor <;> linarith

/-- The loop converges where an iterate of one of its rounds is that near. -/
theorem converges_of_near {x : ℚ} (seeded : 0 < x) {late : Nat} (room : late < 64)
    (above : √(value : ℝ) ≤ ((step value)^[late] x : ℚ))
    (near : (((step value)^[late] x : ℚ) : ℝ) - √(value : ℝ) < 1 / 10 ^ 8) :
    ∃ root, newtonExit value 64 x = .converged root ∧ |(root : ℝ) - √(value : ℝ)| < 1 / 10 ^ 8 := by
  have passes := passes_of_near positive above near
  rw [← Function.iterate_succ_apply' (step value)] at passes
  obtain ⟨before, positiveBefore, close, ends⟩ := newtonExit_converges positive seeded room passes
  exact ⟨step value before, ends, near_root positive positiveBefore close⟩

/-- Below one, the iterates start above the root and less than one away from it. -/
theorem converges_below_one (small : value < 1) :
    ∃ root, newtonExit value 64 1 = .converged root ∧ |(root : ℝ) - √(value : ℝ)| < 1 / 10 ^ 8 := by
  have rooted := root_pos positive
  have start : √(value : ℝ) ≤ ((1 : ℚ) : ℝ) := by
    rw [Rat.cast_one, Real.sqrt_le_one]
    exact_mod_cast small.le
  refine converges_of_near positive one_pos (show 27 < 64 by decide) ?_ ?_
  · rw [cast_iterate positive]
    exact Newton.root_le_iterate rooted start 27
  · rw [cast_iterate positive]
    refine (Newton.iterate_sub_root_le rooted start 27).trans_lt ?_
    calc (((1 : ℚ) : ℝ) - √(value : ℝ)) / 2 ^ 27 ≤ 1 / 2 ^ 27 := by
          gcongr
          push_cast
          linarith
      _ < 1 / 10 ^ 8 := by norm_num

/-- From one on, the first step lands above the root, less than its magnitude times `2 ^ 46` away:
forty-six halvings and seven squarings are enough. -/
theorem converges_from_one (large : 1 ≤ value) (fits : value ≤ 2 ^ 96 - 1) :
    ∃ root, newtonExit value 64 (value / 2) = .converged root ∧
      |(root : ℝ) - √(value : ℝ)| < 1 / 10 ^ 8 := by
  have rooted := root_pos positive
  have square : √(value : ℝ) * √(value : ℝ) = value := Real.mul_self_sqrt (by exact_mod_cast positive.le)
  have magnitude : √(value : ℝ) ≤ 2 ^ 48 := by
    rw [Real.sqrt_le_left (by positivity)]
    have wide : (value : ℝ) ≤ 2 ^ 96 - 1 := by exact_mod_cast fits
    linarith
  have unit : 1 ≤ √(value : ℝ) := Real.one_le_sqrt.mpr (by exact_mod_cast large)
  have first : ((step value (value / 2) : ℚ) : ℝ) = √(value : ℝ) * √(value : ℝ) / 4 + 1 := by
    rw [square]
    unfold step
    push_cast
    field_simp
    ring
  have start : √(value : ℝ) ≤ ((step value (value / 2) : ℚ) : ℝ) := by
    rw [cast_step positive]
    exact Newton.root_le_step (by push_cast; positivity)
  have far : ((step value (value / 2) : ℚ) : ℝ) - √(value : ℝ) ≤ √(value : ℝ) * 2 ^ 46 := by
    have shorter := mul_le_mul_of_nonneg_left magnitude rooted.le
    rw [first]
    linarith
  have bound := Newton.iterate_sub_root_le_of_magnitude rooted start far 7
  rw [← cast_iterate positive, ← Function.iterate_succ_apply] at bound
  refine converges_of_near positive (by positivity) (show 54 < 64 by decide) ?_ (bound.trans_lt ?_)
  · rw [Function.iterate_succ_apply, cast_iterate positive]
    exact Newton.root_le_iterate rooted start 53
  · calc √(value : ℝ) * (2 / 2 ^ 2 ^ 7) ≤ 2 ^ 48 * (2 / 2 ^ 2 ^ 7) := by gcongr
      _ < 1 / 10 ^ 8 := by norm_num

end Root

/-- In exact arithmetic the loop of `decimal_sqrt` ends at its tolerance test, within the tolerance of
the root. -/
theorem decimalSqrt_converges {value : ℚ} (positive : 0 < value) (fits : value ≤ 2 ^ 96 - 1) :
    ∃ root, newtonExit value 64 (sqrtSeed value) = .converged root ∧ decimalSqrt value = root ∧
      |(root : ℝ) - √(value : ℝ)| < 1 / 10 ^ 8 := by
  have ends : ∃ root, newtonExit value 64 (sqrtSeed value) = .converged root ∧
      |(root : ℝ) - √(value : ℝ)| < 1 / 10 ^ 8 := by
    by_cases large : 1 ≤ value
    · rw [sqrtSeed, if_pos large]
      exact converges_from_one positive large fits
    · rw [sqrtSeed, if_neg large]
      exact converges_below_one positive (not_le.mp large)
  obtain ⟨root, exits, near⟩ := ends
  exact ⟨root, exits, by rw [decimalSqrt_eq_answer positive, exits]; rfl, near⟩

theorem decimalSqrt_converges_two :
    ∃ root, newtonExit 2 64 (sqrtSeed 2) = .converged root ∧ decimalSqrt 2 = root ∧
      |(root : ℝ) - √((2 : ℚ) : ℝ)| < 1 / 10 ^ 8 :=
  decimalSqrt_converges (by norm_num) (by norm_num)

end LongTrader.Indicators
