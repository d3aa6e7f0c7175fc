import LongTrader.Deviation
import LongTrader.Indicators.Channels
import LongTrader.Indicators.Rsi

/-! What the indicators can show at most, over any values. -/

namespace LongTrader.Indicators

open Deviation (mean variance squares)

section SquareRoot

/-- A step lands above the root. -/
theorem le_sq_step (value : ℚ) {x : ℚ} (positive : 0 < x) : value ≤ ((x + value / x) / 2) ^ 2 := by
  have gap : ((x + value / x) / 2) ^ 2 - value = ((x - value / x) / 2) ^ 2 := by
    field_simp
    ring
  exact sub_nonneg.mp (gap ▸ sq_nonneg _)

theorem newton_above {value x : ℚ} (positive : 0 < value) (above : 0 < x) (rounds : Nat) :
    0 < newton value (rounds + 1) x ∧ value ≤ newton value (rounds + 1) x ^ 2 := by
  induction rounds generalizing x with
  | zero =>
    have next : 0 < (x + value / x) / 2 := by positivity
    simp only [newton, if_neg above.ne', if_neg next.not_ge, ite_self]
    exact ⟨next, le_sq_step value above⟩
  | succ rounds ih =>
    have next : 0 < (x + value / x) / 2 := by positivity
    rw [newton, if_neg above.ne']
    simp only [if_neg next.not_ge]
    by_cases near : |(x + value / x) / 2 - x| < 1 / 10 ^ 8
    · rw [if_pos near]
      exact ⟨next, le_sq_step value above⟩
    · rw [if_neg near]
      exact ih next

/-- The root is never taken too small. -/
theorem le_sq_decimalSqrt (value : ℚ) : value ≤ decimalSqrt value ^ 2 := by
  rw [decimalSqrt]
  split
  · rename_i negative
    simpa using negative
  · rename_i positive
    rw [not_le] at positive
    refine (newton_above positive ?_ 63).2
    split
    · positivity
    · exact one_pos

theorem decimalSqrt_nonneg (value : ℚ) : 0 ≤ decimalSqrt value := by
  rw [decimalSqrt]
  split
  · exact le_rfl
  · rename_i positive
    rw [not_le] at positive
    refine (newton_above positive ?_ 63).1.le
    split
    · positivity
    · exact one_pos

end SquareRoot

section Statistics

theorem rational_total (values : List ℚ) : total Arithmetic.rational values = some values.sum := by
  have folded : ∀ start : ℚ, values.foldlM Arithmetic.rational.add start = some (start + values.sum) := by
    induction values with
    | nil => simp
    | cons value rest ih =>
      intro start
      rw [List.foldlM_cons, rational_add, Option.bind_eq_bind, Option.bind_some, ih, List.sum_cons, add_assoc]
  rw [total, rational_ofNat, Nat.cast_zero, folded, zero_add]

theorem rational_squaredDeviations (center : ℚ) (values : List ℚ) :
    squaredDeviations Arithmetic.rational center values = some (squares center values) := by
  have folded : ∀ start : ℚ, values.foldlM (fun acc x => do
      let deviation ← Arithmetic.rational.sub x center
      let square ← Arithmetic.rational.mul deviation deviation
      Arithmetic.rational.add acc square) start = some (start + squares center values) := by
    induction values with
    | nil => simp [squares]
    | cons value rest ih =>
      intro start
      have split : squares center (value :: rest) = (value - center) ^ 2 + squares center rest := rfl
      rw [List.foldlM_cons, split, ← add_assoc, sq, ← ih]
      rfl
  simpa [squaredDeviations] using folded 0

theorem cast_length_ne_zero {values : List ℚ} (some_value : 2 ≤ values.length) : (values.length : ℚ) ≠ 0 := by
  exact_mod_cast (by omega : values.length ≠ 0)

/-- The bands are the mean, and as far from it as the multiple of the deviation. -/
theorem BollingerBands.compute_eq {closes : List ℚ} {mult : ℚ} {bands : Bands ℚ}
    (computed : BollingerBands.compute Arithmetic.rational (1 / 10 ^ 8) closes mult = some (some bands)) :
    2 ≤ closes.length ∧ bands = ⟨mean closes, mean closes + decimalSqrt (variance closes) * mult,
      mean closes - decimalSqrt (variance closes) * mult⟩ := by
  rw [BollingerBands.compute] at computed
  by_cases short : closes.length < 2
  · rw [if_pos short] at computed
    cases computed
  have count := cast_length_ne_zero (not_lt.mp short)
  have statistics : meanVariance Arithmetic.rational closes = some (mean closes, variance closes) := by
    simp only [meanVariance, rational_total, rational_ofNat, rational_div _ count, rational_squaredDeviations,
      Option.bind_eq_bind, Option.bind_some]
    rfl
  rw [if_neg short, statistics] at computed
  simp only [rational_decimalSqrt, Option.map_some, Option.some.injEq] at computed
  exact ⟨not_lt.mp short, (Option.some.inj computed).symm⟩

/-- A score is a deviation by the root that was taken. -/
theorem ZScore.value_eq {score : ZScore ℚ} {z : ℚ}
    (shown : score.value Arithmetic.rational (1 / 10 ^ 8) = some (some z)) :
    ∃ last ∈ score.buf, decimalSqrt (variance score.buf) ≠ 0 ∧
      z = (last - mean score.buf) / decimalSqrt (variance score.buf) := by
  rw [ZScore.value] at shown
  by_cases short : score.buf.length < 2
  · rw [if_pos short] at shown
    cases shown
  have count := cast_length_ne_zero (not_lt.mp short)
  have divided : Arithmetic.rational.div score.buf.sum score.buf.length = some (mean score.buf) :=
    rational_div _ count
  have spread : Arithmetic.rational.div (squares (mean score.buf) score.buf) score.buf.length =
      some (variance score.buf) := rational_div _ count
  simp only [if_neg short, rational_total, rational_ofNat, divided, rational_squaredDeviations, spread,
    Option.bind_eq_bind, Option.bind_some, rational_decimalSqrt] at shown
  split at shown
  · cases shown
  rename_i nonzero
  have apart : decimalSqrt (variance score.buf) ≠ 0 := by
    intro zero
    exact nonzero (by simp [zero, Arithmetic.isZero])
  split at shown
  · cases shown
  rename_i last ends
  refine ⟨last, List.mem_of_getLast? ends, apart, ?_⟩
  rw [rational_sub, Option.bind_some, rational_div _ apart] at shown
  exact (Option.some.inj (Option.some.inj shown)).symm

/-- No score is larger than the root of one less than the count. -/
theorem ZScore.sq_le {score : ZScore ℚ} {z : ℚ}
    (shown : score.value Arithmetic.rational (1 / 10 ^ 8) = some (some z)) : z ^ 2 ≤ score.buf.length - 1 := by
  obtain ⟨last, member, apart, rfl⟩ := ZScore.value_eq shown
  have positive : 0 < decimalSqrt (variance score.buf) ^ 2 := by positivity
  have most := Deviation.sq_sub_mean_le member
  have room : (0 : ℚ) ≤ score.buf.length - 1 := by
    have some_value : (1 : ℚ) ≤ score.buf.length := by exact_mod_cast List.length_pos_of_mem member
    linarith
  rw [div_pow, div_le_iff₀ positive]
  exact most.trans (mul_le_mul_of_nonneg_left (le_sq_decimalSqrt _) room)

/-- No close is further from the mean than a band whose multiple is large enough. -/
theorem abs_sub_mean_le {closes : List ℚ} {close mult : ℚ} (member : close ∈ closes) (nonneg : 0 ≤ mult)
    (wide : closes.length - 1 ≤ mult ^ 2) : |close - mean closes| ≤ decimalSqrt (variance closes) * mult := by
  refine abs_le_of_sq_le_sq ?_ (mul_nonneg (decimalSqrt_nonneg _) nonneg)
  have most := Deviation.sq_sub_mean_le member
  calc (close - mean closes) ^ 2 ≤ (closes.length - 1) * variance closes := most
    _ ≤ mult ^ 2 * variance closes := mul_le_mul_of_nonneg_right wide (Deviation.variance_nonneg closes)
    _ ≤ mult ^ 2 * decimalSqrt (variance closes) ^ 2 :=
      mul_le_mul_of_nonneg_left (le_sq_decimalSqrt _) (sq_nonneg mult)
    _ = (decimalSqrt (variance closes) * mult) ^ 2 := by ring

theorem abs_sub_mean_lt {closes : List ℚ} {close mult : ℚ} (member : close ∈ closes) (nonneg : 0 ≤ mult)
    (wide : closes.length - 1 < mult ^ 2) (spread : 0 < decimalSqrt (variance closes)) :
    |close - mean closes| < decimalSqrt (variance closes) * mult := by
  have room : (0 : ℚ) ≤ closes.length - 1 := by
    have some_value : (1 : ℚ) ≤ closes.length := by exact_mod_cast List.length_pos_of_mem member
    linarith
  refine abs_lt_of_sq_lt_sq ?_ (mul_nonneg spread.le nonneg)
  calc (close - mean closes) ^ 2 ≤ (closes.length - 1) * variance closes := Deviation.sq_sub_mean_le member
    _ ≤ (closes.length - 1) * decimalSqrt (variance closes) ^ 2 :=
      mul_le_mul_of_nonneg_left (le_sq_decimalSqrt _) room
    _ < mult ^ 2 * decimalSqrt (variance closes) ^ 2 := mul_lt_mul_of_pos_right wide (pow_pos spread 2)
    _ = (decimalSqrt (variance closes) * mult) ^ 2 := by ring

end Statistics

section Strength

/-- An accumulator of amounts that are not negative is not negative. -/
theorem tracked_nonneg {n : Nat} (positive : 0 < n) {values : List ℚ} (nonneg : ∀ value ∈ values, 0 ≤ value)
    {samples : Nat} {held : Option ℚ} (before : ∀ mean ∈ held, 0 ≤ mean) {amount : ℚ}
    (kept : tracked n samples held values = some amount) : 0 ≤ amount := by
  induction values generalizing samples held with
  | nil => exact before amount kept
  | cons value rest ih =>
    obtain ⟨here, others⟩ := List.forall_mem_cons.mp nonneg
    refine ih others (fun mean present => ?_) kept
    obtain rfl := Option.some.inj present
    have next : 0 ≤ held.elim value fun mean => Smoothing.average n mean value := by
      cases held with
      | none => exact here
      | some mean => exact averages_nonneg positive (before mean rfl) (List.forall_mem_singleton.mpr here)
    rw [track]
    split
    · exact div_nonneg next (Nat.cast_nonneg n)
    · exact next

theorem strength_range {gain loss : ℚ} (gains : 0 ≤ gain) (losses : 0 ≤ loss) :
    0 ≤ strength gain loss ∧ strength gain loss ≤ 100 := by
  rcases losses.eq_or_lt with rfl | falls
  · simp [strength]
  · refine ⟨?_, (strength_lt gain loss gains falls).le⟩
    rw [strength, if_neg falls.ne', sub_nonneg]
    exact div_le_self (by norm_num) (le_add_of_nonneg_right (div_nonneg gains falls.le))

/-- The strength is a percentage from the first change on. -/
theorem Rsi.value_range {period : Nat} {closes : List ℚ} {rsi : ℚ}
    (shown : (Rsi.after period closes).value = some rsi) : 0 ≤ rsi ∧ rsi ≤ 100 := by
  have least : Rsi.after period closes = Rsi.after (max period 1) closes := by
    rw [Rsi.after, Rsi.after, Rsi.new, Rsi.new, max_eq_left (le_max_right period 1)]
  have positive : 0 < max period 1 := Nat.lt_of_lt_of_le Nat.one_pos (le_max_right ..)
  obtain ⟨gains, losses⟩ := Rsi.after_tracks positive closes
  simp only [least, Rsi.value, gains, losses, Option.bind_eq_bind, Option.bind_eq_some_iff, Option.pure_def,
    Option.some.injEq] at shown
  obtain ⟨gain, held, loss, lost, rfl⟩ := shown
  exact strength_range (tracked_nonneg positive (gainsOf_nonneg _) (by simp) held)
    (tracked_nonneg positive (lossesOf_nonneg _) (by simp) lost)

theorem mixed_nonneg {n : Nat} {values : List ℚ} (nonneg : ∀ value ∈ values, 0 ≤ value) :
    0 ≤ Smoothing.mixed n values := by
  have first : 0 ≤ (values.take n).sum :=
    List.sum_nonneg fun value member => nonneg value (List.mem_of_mem_take member)
  exact Smoothing.sums_nonneg (by positivity) fun value member => nonneg value (List.mem_of_mem_drop member)

theorem abs_sub_le_add {first second : ℚ} (nonneg : 0 ≤ first) (nonneg' : 0 ≤ second) :
    |first - second| ≤ first + second := abs_le.mpr ⟨by linarith, by linarith⟩

/-- Two shares of one range, as percentages, differ by a hundred percent of their sum at most. -/
theorem index_le {plusDi minusDi : ℚ} (plus : 0 ≤ plusDi) (minus : 0 ≤ minusDi) :
    |plusDi - minusDi| / (plusDi + minusDi) * 100 ≤ 100 :=
  mul_le_of_le_one_left (by norm_num) (div_le_one_of_le₀ (abs_sub_le_add plus minus) (add_nonneg plus minus))

/-- The strength of a trend is at most a hundred. -/
theorem Adx.value_le {period : Nat} {bars : List Bar} {adx : Adx} {value : ℚ}
    (after : Adx.after period bars = some adx) (shown : adx.value = some value) : value ≤ 100 := by
  have least : Adx.after period bars = Adx.after (max period 1) bars := by
    rw [Adx.after, Adx.after, Adx.new, Adx.new, max_eq_left (le_max_right period 1)]
  have positive : 0 < max period 1 := Nat.lt_of_lt_of_le Nat.one_pos (le_max_right ..)
  by_cases empty : bars = []
  · obtain rfl := empty
    obtain rfl := Option.some.inj after
    cases shown
  obtain ⟨found, same, final, seen⟩ := Adx.after_seen positive empty
  obtain rfl : found = adx := Option.some.inj (same.symm.trans (least.symm.trans after))
  simp only [Adx.value, Option.bind_eq_bind, Option.bind_eq_some_iff, Option.pure_def] at shown
  obtain ⟨tr, range, shown⟩ := shown
  split at shown
  · obtain rfl := Option.some.inj shown
    norm_num
  obtain ⟨plusDm, plus, shown⟩ := Option.bind_eq_some_iff.mp shown
  obtain ⟨minusDm, minus, shown⟩ := Option.bind_eq_some_iff.mp shown
  have full : max period 1 ≤ (moves bars).length := by
    by_contra short
    rw [(seen.cold (not_le.mp short)).1] at plus
    cases plus
  obtain ⟨plusHeld, minusHeld, rangeHeld⟩ := seen.warm full
  obtain rfl := Option.some.inj (plusHeld.symm.trans plus)
  obtain rfl := Option.some.inj (minusHeld.symm.trans minus)
  obtain rfl := Option.some.inj (rangeHeld.symm.trans range)
  have ranges := mixed_nonneg (n := max period 1) (tr_nonneg bars)
  split at shown
  · obtain rfl := Option.some.inj shown
    norm_num
  · obtain rfl := Option.some.inj shown
    have plusDi := mixed_nonneg (n := max period 1) (plusDm_nonneg bars)
    have minusDi := mixed_nonneg (n := max period 1) (minusDm_nonneg bars)
    exact index_le (mul_nonneg (div_nonneg plusDi ranges) (by norm_num))
      (mul_nonneg (div_nonneg minusDi ranges) (by norm_num))

end Strength

section Channel

/-- The channel is of the last bars. -/
theorem DonchianChannel.after_eq (window : Nat) (ranges : List (ℚ × ℚ)) :
    ranges.foldl (fun channel range => DonchianChannel.push channel range.1 range.2) (.new window) =
      ⟨window, recent window ranges⟩ := by
  have rolled : ranges.foldl (roll window) [] = recent window ranges := foldl_roll window ranges (Nat.zero_le window)
  rw [← rolled]
  exact List.foldl_hom (DonchianChannel.mk window) fun _ _ => rfl

/-- The last value is among the recent ones, if any is. -/
theorem last_mem_recent {P : Type} {window : Nat} {values : List P} {last : P} (ends : values.getLast? = some last)
    (some_value : recent window values ≠ []) : last ∈ recent window values := by
  have kept : (recent window values).getLast? = some last := by
    rw [recent, List.getLast?_drop, if_neg, ends]
    exact fun short => some_value (List.drop_eq_nil_of_le short)
  exact List.mem_of_getLast? kept

theorem DonchianChannel.le_upper {channel : DonchianChannel} {upper : ℚ} (shown : channel.upper = some upper)
    {range : ℚ × ℚ} (member : range ∈ channel.buf) : range.1 ≤ upper :=
  (List.max?_eq_some_iff.mp shown).2 _ (List.mem_map_of_mem member)

theorem DonchianChannel.lower_le {channel : DonchianChannel} {lower : ℚ} (shown : channel.lower = some lower)
    {range : ℚ × ℚ} (member : range ∈ channel.buf) : lower ≤ range.2 :=
  (List.min?_eq_some_iff.mp shown).2 _ (List.mem_map_of_mem member)

end Channel

end LongTrader.Indicators
