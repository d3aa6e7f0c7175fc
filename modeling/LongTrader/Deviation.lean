import Mathlib.Algebra.Order.Chebyshev
import Mathlib.Algebra.BigOperators.Fin
import Mathlib.Algebra.BigOperators.Ring.List
import Mathlib.Tactic.FieldSimp
import Mathlib.Tactic.Linarith
import Mathlib.Tactic.LinearCombination
import Mathlib.Tactic.Ring

/-! How far one of some values can be from their mean: the square of its deviation is at most the variance of
all, times one less than how many there are. -/

namespace Deviation

variable {K : Type*} [Field K]

/-- The sum of the deviations from a point. -/
def deviations (center : K) (values : List K) : K := (values.map fun value => value - center).sum

/-- The sum of the squared deviations from a point. -/
def squares (center : K) (values : List K) : K := (values.map fun value => (value - center) ^ 2).sum

def mean (values : List K) : K := values.sum / values.length

def variance (values : List K) : K := squares (mean values) values / values.length

variable {center : K} {values : List K}

theorem deviations_eq (center : K) (values : List K) :
    deviations center values = values.sum - values.length * center := by
  induction values with
  | nil => simp [deviations]
  | cons value rest ih =>
    have split : deviations center (value :: rest) = value - center + deviations center rest := rfl
    rw [split, ih, List.sum_cons, List.length_cons]
    push_cast
    ring

theorem deviations_perm {others : List K} (same : values.Perm others) :
    deviations center values = deviations center others := (same.map _).sum_eq

theorem squares_perm {others : List K} (same : values.Perm others) :
    squares center values = squares center others := (same.map _).sum_eq

variable [LinearOrder K] [IsStrictOrderedRing K]

theorem squares_nonneg (center : K) (values : List K) : 0 ≤ squares center values := by
  refine List.sum_nonneg fun square member => ?_
  obtain ⟨value, _, rfl⟩ := List.mem_map.mp member
  exact sq_nonneg _

/-- The deviations from the mean outweigh each other. -/
theorem deviations_mean (some_value : values ≠ []) : deviations (mean values) values = 0 := by
  have count : (values.length : K) ≠ 0 := by simpa using some_value
  rw [deviations_eq, mean, mul_div_cancel₀ _ count, sub_self]

theorem sq_deviations_le (center : K) (values : List K) :
    deviations center values ^ 2 ≤ values.length * squares center values := by
  have bound := sq_sum_le_card_mul_sum_sq (s := Finset.univ) (f := fun index : Fin values.length =>
    values[(index : Nat)] - center)
  have sums : ∀ amount : K → K, ∑ index : Fin values.length, amount values[(index : Nat)] = (values.map amount).sum := by
    intro amount
    rw [← List.sum_ofFn, List.ofFn_getElem_eq_map]
  rw [Finset.card_univ, Fintype.card_fin, sums fun value => value - center,
    sums fun value => (value - center) ^ 2] at bound
  exact bound

/-- One deviation against the rest: they outweigh it, and together they are no shorter than it by more than their
number. -/
theorem count_mul_sq_le {value : K} (member : value ∈ values) :
    values.length * (value - mean values) ^ 2 ≤ (values.length - 1) * squares (mean values) values := by
  obtain ⟨front, back, cut⟩ := List.append_of_mem member
  have order : values.Perm (value :: (front ++ back)) := cut ▸ List.perm_middle
  have outweighed : (value - mean values) + deviations (mean values) (front ++ back) = 0 := by
    rw [← deviations_mean (List.ne_nil_of_mem member), deviations_perm order]
    rfl
  have whole : squares (mean values) values =
      (value - mean values) ^ 2 + squares (mean values) (front ++ back) := squares_perm order
  have count : (values.length : K) = (front ++ back).length + 1 := by
    rw [order.length_eq, List.length_cons]
    push_cast
    rfl
  have rest := sq_deviations_le (mean values) (front ++ back)
  have opposite : deviations (mean values) (front ++ back) = -(value - mean values) :=
    eq_neg_of_add_eq_zero_right outweighed
  rw [opposite, neg_sq] at rest
  rw [count, whole]
  linarith

theorem variance_nonneg (values : List K) : 0 ≤ variance values :=
  div_nonneg (squares_nonneg _ _) (Nat.cast_nonneg _)

/-- The bound on one deviation. -/
theorem sq_sub_mean_le {value : K} (member : value ∈ values) :
    (value - mean values) ^ 2 ≤ (values.length - 1) * variance values := by
  have count : (0 : K) < values.length := by
    exact_mod_cast List.length_pos_of_mem member
  rw [variance, mul_div_assoc', le_div_iff₀ count, mul_comm]
  exact count_mul_sq_le member

end Deviation
