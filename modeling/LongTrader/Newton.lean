import Mathlib.Algebra.Order.Field.Basic
import Mathlib.Logic.Function.Iterate
import Mathlib.Tactic.FieldSimp
import Mathlib.Tactic.GCongr
import Mathlib.Tactic.Linarith
import Mathlib.Tactic.Positivity
import Mathlib.Tactic.Ring

/-! Newton's iteration for a square root, over an ordered field that has the root. A step lands on the
root or above it; from there a step halves the error at least, and squares it once it is small. -/

namespace Newton

variable {K : Type*} [Field K]

/-- One step towards the square root of a number. -/
def step (square x : K) : K := (x + square / x) / 2

/-- The iteration is the same in every extension of the field. -/
theorem map_iterate {L : Type*} [Field L] (extend : K →+* L) (square x : K) (rounds : ℕ) :
    extend ((step square)^[rounds] x) = (step (extend square))^[rounds] (extend x) := by
  refine Function.Semiconj.iterate_right (fun x => ?_) rounds x
  simp only [step, map_div₀, map_add, map_ofNat]

variable [LinearOrder K] [IsStrictOrderedRing K] {root x : K}

/-- What is left of the error after a step. -/
theorem step_sub_root (positive : 0 < x) :
    step (root * root) x - root = (x - root) ^ 2 / (2 * x) := by
  unfold step
  field_simp
  ring

theorem root_le_step (positive : 0 < x) : root ≤ step (root * root) x := by
  have left : 0 ≤ (x - root) ^ 2 / (2 * x) := by positivity
  rw [← step_sub_root positive] at left
  exact sub_nonneg.mp left

/-- The step that was taken bounds the error that is left. -/
theorem error_le_travelled (rooted : 0 < root) (positive : 0 < x) :
    |step (root * root) x - root| ≤ |step (root * root) x - x| := by
  have travelled : step (root * root) x - x = (root - x) * (root + x) / (2 * x) := by
    unfold step
    field_simp
    ring
  have doubled : 0 < 2 * x := by positivity
  have nearer : |x - root| ≤ root + x := abs_le.mpr ⟨by linarith, by linarith⟩
  rw [step_sub_root positive, travelled, abs_div _ (2 * x), abs_div _ (2 * x), abs_of_pos doubled]
  refine div_le_div_of_nonneg_right ?_ doubled.le
  rw [abs_pow, abs_mul, abs_sub_comm root, abs_of_pos (add_pos rooted positive), sq]
  gcongr

theorem error_halves (rooted : 0 < root) (above : root ≤ x) :
    step (root * root) x - root ≤ (x - root) / 2 := by
  have positive : 0 < x := rooted.trans_le above
  rw [step_sub_root positive, div_le_div_iff₀ (by positivity) two_pos]
  have shrinks : (x - root) * (x - root) ≤ (x - root) * x :=
    mul_le_mul_of_nonneg_left (by linarith) (sub_nonneg.mpr above)
  calc (x - root) ^ 2 * 2 = (x - root) * (x - root) * 2 := by ring
    _ ≤ (x - root) * x * 2 := by gcongr
    _ = (x - root) * (2 * x) := by ring

theorem error_squares (rooted : 0 < root) (above : root ≤ x) :
    step (root * root) x - root ≤ (x - root) ^ 2 / (2 * root) := by
  rw [step_sub_root (rooted.trans_le above)]
  gcongr

section Run

variable (rooted : 0 < root) (above : root ≤ x)

include rooted above

theorem root_le_iterate (rounds : ℕ) : root ≤ (step (root * root))^[rounds] x := by
  induction rounds with
  | zero => exact above
  | succ rounds ih =>
    rw [Function.iterate_succ_apply']
    exact root_le_step (rooted.trans_le ih)

/-- The linear phase. -/
theorem iterate_sub_root_le (rounds : ℕ) :
    (step (root * root))^[rounds] x - root ≤ (x - root) / 2 ^ rounds := by
  induction rounds with
  | zero => simp
  | succ rounds ih =>
    rw [Function.iterate_succ_apply', pow_succ, ← div_div]
    have halved := error_halves rooted (root_le_iterate rooted above rounds)
    exact halved.trans (by gcongr)

/-- The quadratic phase, from an iterate of the root's magnitude. -/
theorem iterate_sub_root_le_square (near : x - root ≤ root) (rounds : ℕ) :
    (step (root * root))^[rounds] x - root ≤ root * (2 / 2 ^ 2 ^ rounds) := by
  induction rounds with
  | zero => simpa using near
  | succ rounds ih =>
    rw [Function.iterate_succ_apply']
    have reached := root_le_iterate rooted above rounds
    have bound : 0 ≤ (step (root * root))^[rounds] x - root := sub_nonneg.mpr reached
    calc step (root * root) ((step (root * root))^[rounds] x) - root
        ≤ ((step (root * root))^[rounds] x - root) ^ 2 / (2 * root) := error_squares rooted reached
      _ ≤ (root * (2 / 2 ^ 2 ^ rounds)) ^ 2 / (2 * root) := by gcongr
      _ = root * (2 / 2 ^ 2 ^ (rounds + 1)) := by
        rw [pow_succ 2 rounds, pow_mul (2 : K)]
        field_simp

/-- Both phases: halvings until the root's magnitude is reached, then squarings. -/
theorem iterate_sub_root_le_of_magnitude {halvings : ℕ} (far : x - root ≤ root * 2 ^ halvings)
    (squarings : ℕ) :
    (step (root * root))^[squarings + halvings] x - root ≤ root * (2 / 2 ^ 2 ^ squarings) := by
  rw [Function.iterate_add_apply]
  refine iterate_sub_root_le_square rooted (root_le_iterate rooted above halvings) ?_ squarings
  calc (step (root * root))^[halvings] x - root ≤ (x - root) / 2 ^ halvings :=
        iterate_sub_root_le rooted above halvings
    _ ≤ root * 2 ^ halvings / 2 ^ halvings := by gcongr
    _ = root := mul_div_cancel_right₀ root (by positivity)

end Run

end Newton
