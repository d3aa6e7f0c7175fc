import Mathlib.Algebra.BigOperators.Group.List.Basic
import Mathlib.Algebra.Order.BigOperators.Group.List
import Mathlib.Algebra.Order.Field.Basic
import Mathlib.Tactic.FieldSimp
import Mathlib.Tactic.GCongr
import Mathlib.Tactic.Linarith
import Mathlib.Tactic.Positivity
import Mathlib.Tactic.Ring

/-! Wilder's smoothing of a series, over a field: the mean of the first values and then a recurrence,
which has a form for the averages and one for the sums. -/

namespace Smoothing

variable {K : Type*} [Field K]

/-- The recurrence of the averages. -/
def average (n : ℕ) (mean value : K) : K := (mean * (n - 1) + value) / n

/-- The recurrence of the sums. -/
def accumulate (n : ℕ) (sum value : K) : K := sum - sum / n + value

def averages (n : ℕ) (seed : K) (values : List K) : K := values.foldl (average n) seed

def sums (n : ℕ) (seed : K) (values : List K) : K := values.foldl (accumulate n) seed

/-- The smoothed average of a series, from the mean of its first values. -/
def wilder (n : ℕ) (values : List K) : K := averages n ((values.take n).sum / n) (values.drop n)

/-- The smoothed sum of a series, from the sum of its first values. -/
def wilderSum (n : ℕ) (values : List K) : K := sums n (values.take n).sum (values.drop n)

/-- The recurrence of the sums, from the seed that belongs to the averages. -/
def mixed (n : ℕ) (values : List K) : K := sums n ((values.take n).sum / n) (values.drop n)

variable {n : ℕ} {seed value : K} {values : List K}

@[simp] theorem averages_cons : averages n seed (value :: values) = averages n (average n seed value) values :=
  rfl

@[simp] theorem sums_cons : sums n seed (value :: values) = sums n (accumulate n seed value) values := rfl

/-- What a seed is still worth after the values, in the form of the sums. -/
theorem sums_split (n : ℕ) (seed : K) (values : List K) :
    sums n seed values = (1 - 1 / n) ^ values.length * seed + sums n 0 values := by
  induction values generalizing seed with
  | nil => simp [sums]
  | cons value rest ih =>
    rw [sums_cons, sums_cons, ih (accumulate n seed value), ih (accumulate n 0 value), List.length_cons]
    simp only [accumulate]
    ring

theorem mixed_of_length (full : values.length = n) : mixed n values = values.sum / n := by
  rw [mixed, List.take_of_length_le full.le, List.drop_of_length_le full.le]
  rfl

theorem mixed_concat (full : n ≤ values.length) (value : K) :
    mixed n (values ++ [value]) = accumulate n (mixed n values) value := by
  rw [mixed, mixed, List.take_append_of_le_length full, List.drop_append_of_le_length full, sums, sums,
    List.foldl_append]
  rfl

theorem mixed_one (values : List K) : mixed 1 values = wilderSum 1 values := by
  rw [mixed, wilderSum, Nat.cast_one, div_one]

section Characteristic

variable [CharZero K] (positive : 0 < n)

include positive

theorem accumulate_mul (mean value : K) : accumulate n (n * mean) value = n * average n mean value := by
  have divisor : (n : K) ≠ 0 := Nat.cast_ne_zero.mpr positive.ne'
  unfold accumulate average
  field_simp

/-- The two forms agree, from seeds that agree. -/
theorem sums_mul (mean : K) (values : List K) : sums n (n * mean) values = n * averages n mean values := by
  induction values generalizing mean with
  | nil => rfl
  | cons value rest ih => rw [sums_cons, accumulate_mul positive, ih, averages_cons]

theorem wilderSum_eq (values : List K) : wilderSum n values = n * wilder n values := by
  have divisor : (n : K) ≠ 0 := Nat.cast_ne_zero.mpr positive.ne'
  rw [wilderSum, wilder, ← sums_mul positive, mul_div_cancel₀ _ divisor]

/-- A ratio of smoothed series is the same in both forms. -/
theorem wilderSum_div (first second : List K) :
    wilderSum n first / wilderSum n second = wilder n first / wilder n second := by
  have divisor : (n : K) ≠ 0 := Nat.cast_ne_zero.mpr positive.ne'
  rw [wilderSum_eq positive, wilderSum_eq positive, mul_div_mul_left _ _ divisor]

end Characteristic

section Ordered

variable [LinearOrder K] [IsStrictOrderedRing K]

theorem weight_nonneg (n : ℕ) : (0 : K) ≤ 1 - 1 / n := by
  rcases Nat.eq_zero_or_pos n with rfl | positive
  · simp
  · have unit : (1 : K) / n ≤ 1 := by
      rw [div_le_one (by exact_mod_cast positive)]
      exact_mod_cast positive
    linarith

theorem accumulate_le {seed' value' : K} (seeds : seed ≤ seed') (grows : value ≤ value') :
    accumulate n seed value ≤ accumulate n seed' value' := by
  have weighed := mul_le_mul_of_nonneg_right seeds (weight_nonneg (K := K) n)
  calc seed - seed / n + value = seed * (1 - 1 / n) + value := by ring
    _ ≤ seed' * (1 - 1 / n) + value' := by gcongr
    _ = seed' - seed' / n + value' := by ring

theorem sums_le {seed' : K} {values' : List K} (seeds : seed ≤ seed')
    (grows : List.Forall₂ (· ≤ ·) values values') : sums n seed values ≤ sums n seed' values' := by
  induction grows generalizing seed seed' with
  | nil => exact seeds
  | cons here _ ih => exact ih (accumulate_le seeds here)

theorem sums_nonneg (seeded : 0 ≤ seed) (nonneg : ∀ value ∈ values, 0 ≤ value) : 0 ≤ sums n seed values := by
  induction values generalizing seed with
  | nil => exact seeded
  | cons value rest ih =>
    obtain ⟨here, others⟩ := List.forall_mem_cons.mp nonneg
    refine ih ?_ others
    have weighed := mul_nonneg seeded (weight_nonneg (K := K) n)
    calc 0 ≤ seed * (1 - 1 / n) + value := by positivity
      _ = seed - seed / n + value := by ring

theorem wilderSum_nonneg (nonneg : ∀ value ∈ values, 0 ≤ value) : 0 ≤ wilderSum n values := by
  refine sums_nonneg (List.sum_nonneg fun value member => ?_) fun value member => ?_
  · exact nonneg value (List.mem_of_mem_take member)
  · exact nonneg value (List.mem_of_mem_drop member)

theorem wilderSum_le {values' : List K} (grows : List.Forall₂ (· ≤ ·) values values') :
    wilderSum n values ≤ wilderSum n values' :=
  sums_le (List.Forall₂.sum_le_sum (List.forall₂_take n grows)) (List.forall₂_drop n grows)

/-- Two ratios of weighed sums, the first with its leading terms scaled down. -/
theorem rescaled_div_eq_iff {scale weight first later first' later' : K} (scales : 1 < scale)
    (weighs : 0 < weight) (nonneg : 0 ≤ first') (nonneg' : 0 ≤ later') :
    (weight * (first / scale) + later) / (weight * (first' / scale) + later') =
        (weight * first + later) / (weight * first' + later') ↔ first * later' = later * first' := by
  have positive : 0 < scale := one_pos.trans scales
  by_cases empty : weight * first' + later' = 0
  · have rest : later' = 0 := by linarith [mul_nonneg weighs.le nonneg]
    have seeded : first' = 0 := by
      rw [rest, add_zero] at empty
      exact (mul_eq_zero.mp empty).resolve_left weighs.ne'
    simp [rest, seeded]
  · have total : 0 < weight * (first' / scale) + later' := by
      rcases nonneg'.eq_or_lt with rfl | some_later
      · have seeded : first' ≠ 0 := by
          rintro rfl
          simp at empty
        have some_first := nonneg.lt_of_ne' seeded
        positivity
      · positivity
    have shape : (weight * (first / scale) + later) * (weight * first' + later') -
        (weight * first + later) * (weight * (first' / scale) + later') =
          weight * (1 / scale - 1) * (first * later' - later * first') := by ring
    have shrinks : 1 / scale - 1 ≠ 0 := (sub_neg.mpr ((div_lt_one positive).mpr scales)).ne
    rw [div_eq_div_iff total.ne' empty, ← sub_eq_zero, shape, mul_eq_zero,
      or_iff_right (mul_ne_zero weighs.ne' shrinks), sub_eq_zero]

/-- Once the seed has the wrong scale, a ratio of the sums is right only where the first values are in
the same ratio as what the later ones come to. -/
theorem mixed_div_eq_iff (positive : 0 < n) {others : List K} (aligned : values.length = others.length)
    (nonneg : ∀ value ∈ others, 0 ≤ value) :
    mixed n values / mixed n others = wilderSum n values / wilderSum n others ↔
      n = 1 ∨ (values.take n).sum * sums n 0 (others.drop n) =
        sums n 0 (values.drop n) * (others.take n).sum := by
  by_cases unit : n = 1
  · obtain rfl := unit
    rw [mixed_one, mixed_one]
    exact iff_of_true rfl (.inl rfl)
  have scales : (1 : K) < n := by exact_mod_cast Nat.lt_of_le_of_ne positive (Ne.symm unit)
  have weighs : (0 : K) < (1 - 1 / n) ^ (others.drop n).length :=
    pow_pos (sub_pos.mpr ((div_lt_one (one_pos.trans scales)).mpr scales)) _
  have first : 0 ≤ (others.take n).sum :=
    List.sum_nonneg fun value member => nonneg value (List.mem_of_mem_take member)
  have later : 0 ≤ sums n 0 (others.drop n) :=
    sums_nonneg le_rfl fun value member => nonneg value (List.mem_of_mem_drop member)
  have lengths : (values.drop n).length = (others.drop n).length := by
    rw [List.length_drop, List.length_drop, aligned]
  rw [or_iff_right unit, mixed, mixed, wilderSum, wilderSum, sums_split n _ (values.drop n),
    sums_split n (values.take n).sum, sums_split n _ (others.drop n), sums_split n (others.take n).sum, lengths]
  exact rescaled_div_eq_iff scales weighs first later

end Ordered

end Smoothing
