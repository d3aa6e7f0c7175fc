import LongTrader.Smoothing
import Mathlib.Algebra.Order.Field.Rat

/-! The Relative Strength Index against Wilder's: the seed phase is over with the first change, since
the accumulators that it fills are the ones that end it. -/

namespace LongTrader.Indicators

open Smoothing (average averages wilder)

/-- Relative Strength Index (Wilder smoothing). -/
structure Rsi where
  period : Nat
  avgGain : Option ℚ
  avgLoss : Option ℚ
  prev : Option ℚ
  samples : Nat

def Rsi.new (period : Nat) : Rsi := ⟨max period 1, none, none, none, 0⟩

/-- The accumulators with the gain and the loss of a change. -/
def Rsi.smooth (rsi : Rsi) (gain loss : ℚ) : Option ℚ × Option ℚ :=
  match rsi.avgGain, rsi.avgLoss with
  | some g, some l =>
    (some ((g * (rsi.period - 1) + gain) / rsi.period), some ((l * (rsi.period - 1) + loss) / rsi.period))
  | g, l => (some (g.getD 0 + gain), some (l.getD 0 + loss))

def Rsi.push (rsi : Rsi) (close : ℚ) : Rsi :=
  match rsi.prev with
  | none => { rsi with prev := some close }
  | some prev =>
    let change := close - prev
    let held := rsi.smooth (max change 0) (max (-change) 0)
    let n : ℚ := rsi.period
    let samples := rsi.samples + 1
    if samples = rsi.period then
      { rsi with
        prev := some close, samples, avgGain := held.1.map (· / n), avgLoss := held.2.map (· / n) }
    else { rsi with prev := some close, samples, avgGain := held.1, avgLoss := held.2 }

/-- The index of an average gain and an average loss. -/
def strength (gain loss : ℚ) : ℚ := if loss = 0 then 100 else 100 - 100 / (1 + gain / loss)

def Rsi.value (rsi : Rsi) : Option ℚ := do
  let gain ← rsi.avgGain
  let loss ← rsi.avgLoss
  return strength gain loss

/-- The index after the closes. -/
def Rsi.after (period : Nat) (closes : List ℚ) : Rsi := closes.foldl Rsi.push (.new period)

/-- The changes that follow a close. -/
def changesFrom : ℚ → List ℚ → List ℚ
  | _, [] => []
  | prev, close :: rest => (close - prev) :: changesFrom close rest

def changes : List ℚ → List ℚ
  | [] => []
  | first :: rest => changesFrom first rest

def gainsOf (changes : List ℚ) : List ℚ := changes.map fun change => max change 0

def lossesOf (changes : List ℚ) : List ℚ := changes.map fun change => max (-change) 0

/-- Wilder's index of a list of closes. -/
def wilderRsi (period : Nat) (closes : List ℚ) : ℚ :=
  strength (wilder period (gainsOf (changes closes))) (wilder period (lossesOf (changes closes)))

section Series

/-- One accumulator over a value, with the values before it counted. -/
def track (n samples : Nat) (held : Option ℚ) (value : ℚ) : ℚ :=
  let next := held.elim value fun mean => average n mean value
  if samples + 1 = n then next / n else next

/-- One accumulator over a series. -/
def tracked (n : Nat) : Nat → Option ℚ → List ℚ → Option ℚ
  | _, held, [] => held
  | samples, held, value :: rest => tracked n (samples + 1) (some (track n samples held value)) rest

/-- What an accumulator holds once the period is full: the recurrence of the averages from the first
value on, divided by the period once. -/
def heldAverage (n : Nat) : List ℚ → ℚ
  | [] => 0
  | first :: rest => averages n (averages n first (rest.take (n - 1)) / n) (rest.drop (n - 1))

variable {n samples : Nat}

theorem tracked_late (late : n ≤ samples) (mean : ℚ) (values : List ℚ) :
    tracked n samples (some mean) values = some (averages n mean values) := by
  induction values generalizing samples mean with
  | nil => rfl
  | cons value rest ih =>
    rw [tracked, ih (Nat.le_succ_of_le late), track, if_neg (by omega)]
    rfl

theorem tracked_full (early : samples < n) (mean : ℚ) (values : List ℚ)
    (full : n ≤ samples + values.length) :
    tracked n samples (some mean) values =
      some (averages n (averages n mean (values.take (n - samples)) / n) (values.drop (n - samples))) := by
  induction values generalizing samples mean with
  | nil => simp only [List.length_nil] at full; omega
  | cons value rest ih =>
    rw [tracked, track]
    by_cases last : samples + 1 = n
    · have room : n - samples = 1 := by omega
      rw [if_pos last, tracked_late last.ge, room]
      rfl
    · have room : n - samples = (n - (samples + 1)) + 1 := by omega
      rw [if_neg last, ih (by omega) _ (by simp only [List.length_cons] at full; omega), room,
        List.take_succ_cons, List.drop_succ_cons]
      rfl

theorem tracked_heldAverage (positive : 0 < n) {values : List ℚ} (full : n ≤ values.length) :
    tracked n 0 none values = some (heldAverage n values) := by
  rcases values with _ | ⟨first, rest⟩
  · simp only [List.length_nil] at full; omega
  rw [tracked, track, heldAverage]
  by_cases unit : 0 + 1 = n
  · obtain rfl := unit
    rw [if_pos rfl, tracked_late le_rfl]
    rfl
  · rw [if_neg unit, tracked_full (by omega) _ _ (by simp only [List.length_cons] at full; omega)]
    rfl

theorem heldAverage_one (values : List ℚ) : heldAverage 1 values = wilder 1 values := by
  rcases values with _ | ⟨first, rest⟩
  · simp [heldAverage, wilder, averages]
  · simp [heldAverage, wilder, averages]

end Series

section Run

variable {rsi : Rsi} {period : Nat}

/-- A push is a round of both accumulators. -/
theorem Rsi.push_tracks {prev : ℚ} (seen : rsi.prev = some prev)
    (aligned : rsi.avgGain.isSome = rsi.avgLoss.isSome) (close : ℚ) :
    rsi.push close = { rsi with
      prev := some close
      samples := rsi.samples + 1
      avgGain := some (track rsi.period rsi.samples rsi.avgGain (max (close - prev) 0))
      avgLoss := some (track rsi.period rsi.samples rsi.avgLoss (max (-(close - prev)) 0)) } := by
  obtain ⟨n, gain, loss, before, samples⟩ := rsi
  obtain rfl : before = some prev := seen
  rcases gain with _ | gain <;> rcases loss with _ | loss
  · by_cases full : samples + 1 = n <;> simp [Rsi.push, Rsi.smooth, track, full]
  · simp at aligned
  · simp at aligned
  · by_cases full : samples + 1 = n <;> simp [Rsi.push, Rsi.smooth, track, average, full]

theorem Rsi.run_tracks {prev : ℚ} (seen : rsi.prev = some prev)
    (aligned : rsi.avgGain.isSome = rsi.avgLoss.isSome) (closes : List ℚ) :
    (closes.foldl Rsi.push rsi).avgGain =
        tracked rsi.period rsi.samples rsi.avgGain (gainsOf (changesFrom prev closes)) ∧
      (closes.foldl Rsi.push rsi).avgLoss =
        tracked rsi.period rsi.samples rsi.avgLoss (lossesOf (changesFrom prev closes)) := by
  induction closes generalizing rsi prev with
  | nil => exact ⟨rfl, rfl⟩
  | cons close rest ih =>
    rw [List.foldl_cons, Rsi.push_tracks seen aligned]
    exact ih rfl rfl

/-- The accumulators over the changes of a run. -/
theorem Rsi.after_tracks (positive : 0 < period) (closes : List ℚ) :
    (Rsi.after period closes).avgGain = tracked period 0 none (gainsOf (changes closes)) ∧
      (Rsi.after period closes).avgLoss = tracked period 0 none (lossesOf (changes closes)) := by
  rcases closes with _ | ⟨first, rest⟩
  · exact ⟨rfl, rfl⟩
  · have start : Rsi.after period (first :: rest) =
        rest.foldl Rsi.push ⟨period, none, none, some first, 0⟩ := by
      simp [Rsi.after, Rsi.new, Rsi.push, max_eq_left (Nat.succ_le_of_lt positive)]
    rw [start]
    exact Rsi.run_tracks rfl rfl rest

theorem changesFrom_length (prev : ℚ) (closes : List ℚ) : (changesFrom prev closes).length = closes.length := by
  induction closes generalizing prev with
  | nil => rfl
  | cons close rest ih => rw [changesFrom, List.length_cons, ih, List.length_cons]

theorem changes_length (closes : List ℚ) : (changes closes).length = closes.length - 1 := by
  rcases closes with _ | ⟨first, rest⟩
  · rfl
  · rw [changes, changesFrom_length, List.length_cons, Nat.add_sub_cancel]

/-- The value once the period is full, whatever the closes are. -/
theorem Rsi.value_full (positive : 0 < period) {closes : List ℚ} (enough : period + 1 ≤ closes.length) :
    (Rsi.after period closes).value =
      some (strength (heldAverage period (gainsOf (changes closes)))
        (heldAverage period (lossesOf (changes closes)))) := by
  have full : period ≤ (changes closes).length := by
    rw [changes_length]
    omega
  obtain ⟨gain, loss⟩ := Rsi.after_tracks positive closes
  rw [tracked_heldAverage positive (by simpa [gainsOf] using full)] at gain
  rw [tracked_heldAverage positive (by simpa [lossesOf] using full)] at loss
  simp [Rsi.value, gain, loss]

/-- There is a value from the first change on. -/
theorem Rsi.value_two (positive : 0 < period) (first second : ℚ) :
    ((Rsi.after period [first, second]).value).isSome := by
  obtain ⟨gain, loss⟩ := Rsi.after_tracks positive [first, second]
  rw [Rsi.value, gain, loss]
  rfl

end Run

section Wilder

theorem averages_nonneg {n : Nat} (positive : 0 < n) {mean : ℚ} (seeded : 0 ≤ mean) {values : List ℚ}
    (nonneg : ∀ value ∈ values, 0 ≤ value) : 0 ≤ averages n mean values := by
  have divisor : (0 : ℚ) < n := by exact_mod_cast positive
  have sums := Smoothing.sums_nonneg (n := n) (mul_nonneg divisor.le seeded) nonneg
  rw [Smoothing.sums_mul positive] at sums
  exact nonneg_of_mul_nonneg_right sums divisor

theorem strength_lt (gain loss : ℚ) (gains : 0 ≤ gain) (losses : 0 < loss) : strength gain loss < 100 := by
  rw [strength, if_neg losses.ne']
  exact sub_lt_self 100 (by positivity)

/-- Two indices agree where neither or both of them have a loss, and gain is to loss as in the other. -/
theorem strength_eq_iff {gain loss gain' loss' : ℚ} (gains : 0 ≤ gain) (losses : 0 ≤ loss)
    (gains' : 0 ≤ gain') (losses' : 0 ≤ loss') :
    strength gain loss = strength gain' loss' ↔ (loss = 0 ↔ loss' = 0) ∧ gain * loss' = gain' * loss := by
  rcases losses.eq_or_lt with rfl | falls <;> rcases losses'.eq_or_lt with rfl | falls'
  · simp [strength]
  · have below := strength_lt gain' loss' gains' falls'
    have top : strength gain 0 = 100 := if_pos rfl
    rw [top]
    exact iff_of_false below.ne' fun same => falls'.ne' (same.1.mp rfl)
  · have below := strength_lt gain loss gains falls
    have top : strength gain' 0 = 100 := if_pos rfl
    rw [top]
    exact iff_of_false below.ne fun same => falls.ne' (same.1.mpr rfl)
  · have divisor : 1 + gain / loss ≠ 0 := by positivity
    have divisor' : 1 + gain' / loss' ≠ 0 := by positivity
    rw [strength, strength, if_neg falls.ne', if_neg falls'.ne', sub_right_inj, div_eq_div_iff divisor divisor',
      mul_right_inj' (by norm_num), add_right_inj, div_eq_div_iff falls'.ne' falls.ne', eq_comm]
    exact (and_iff_right (iff_of_false falls.ne' falls'.ne')).symm

theorem gainsOf_nonneg (changes : List ℚ) : ∀ gain ∈ gainsOf changes, 0 ≤ gain := by
  rintro _ member
  obtain ⟨change, _, rfl⟩ := List.mem_map.mp member
  exact le_max_right ..

theorem lossesOf_nonneg (changes : List ℚ) : ∀ loss ∈ lossesOf changes, 0 ≤ loss := by
  rintro _ member
  obtain ⟨change, _, rfl⟩ := List.mem_map.mp member
  exact le_max_right ..

theorem wilder_nonneg {n : Nat} (positive : 0 < n) {values : List ℚ} (nonneg : ∀ value ∈ values, 0 ≤ value) :
    0 ≤ wilder n values := by
  have first : 0 ≤ (values.take n).sum :=
    List.sum_nonneg fun value member => nonneg value (List.mem_of_mem_take member)
  exact averages_nonneg positive (by positivity) fun value member => nonneg value (List.mem_of_mem_drop member)

theorem heldAverage_nonneg {n : Nat} (positive : 0 < n) {values : List ℚ}
    (nonneg : ∀ value ∈ values, 0 ≤ value) : 0 ≤ heldAverage n values := by
  rcases values with _ | ⟨first, rest⟩
  · exact le_rfl
  · obtain ⟨here, others⟩ := List.forall_mem_cons.mp nonneg
    have seeded : 0 ≤ averages n first (rest.take (n - 1)) :=
      averages_nonneg positive here fun value member => others value (List.mem_of_mem_take member)
    exact averages_nonneg positive (by positivity) fun value member => others value (List.mem_of_mem_drop member)

/-- When the value alone is Wilder's: neither or both losses are zero, and the gains are to the losses
as Wilder's are. -/
theorem Rsi.value_eq_wilderRsi_iff {period : Nat} (positive : 0 < period) {closes : List ℚ}
    (enough : period + 1 ≤ closes.length) :
    let gains := gainsOf (changes closes)
    let losses := lossesOf (changes closes)
    (Rsi.after period closes).value = some (wilderRsi period closes) ↔
      (heldAverage period losses = 0 ↔ wilder period losses = 0) ∧
        heldAverage period gains * wilder period losses = wilder period gains * heldAverage period losses := by
  have gains := gainsOf_nonneg (changes closes)
  have losses := lossesOf_nonneg (changes closes)
  rw [Rsi.value_full positive enough, Option.some_inj, wilderRsi]
  exact strength_eq_iff (heldAverage_nonneg positive gains) (heldAverage_nonneg positive losses)
    (wilder_nonneg positive gains) (wilder_nonneg positive losses)

end Wilder

/-- The index is Wilder's, and there is none before the period is full, for a period of one only. -/
theorem rsi_wilder_iff {period : Nat} (positive : 0 < period) {closes : List ℚ}
    (enough : period + 1 ≤ closes.length) :
    ((Rsi.after period closes).value = some (wilderRsi period closes) ∧
      ∀ earlier later, closes = earlier ++ later → (changes earlier).length < period →
        (Rsi.after period earlier).value = none) ↔ period = 1 := by
  constructor
  · rintro ⟨_, cold⟩
    by_contra longer
    rcases closes with _ | ⟨first, _ | ⟨second, later⟩⟩
    · simp at enough
    · simp only [List.length_singleton] at enough; omega
    · have early : (changes [first, second]).length < period := by
        rw [changes_length]
        simp only [List.length_cons, List.length_nil]
        omega
      have some_value := Rsi.value_two positive first second
      rw [cold [first, second] later rfl early] at some_value
      exact absurd some_value (by decide)
  · rintro rfl
    refine ⟨?_, fun earlier later _ early => ?_⟩
    · rw [Rsi.value_full one_pos enough, heldAverage_one, heldAverage_one, wilderRsi]
    · rw [changes_length] at early
      rcases earlier with _ | ⟨first, _ | ⟨second, rest⟩⟩
      · rfl
      · rfl
      · simp at early

theorem rsi_wilder_iff_one :
    ((Rsi.after 1 [10, 11]).value = some (wilderRsi 1 [10, 11]) ∧
      ∀ earlier later, [10, 11] = earlier ++ later → (changes earlier).length < 1 →
        (Rsi.after 1 earlier).value = none) ↔ 1 = 1 :=
  rsi_wilder_iff (by decide) (by decide)

/-- Two rises and a fall: the index of a period of two has a value after the first of them, and is
not Wilder's after the third. -/
theorem rsi_seeds_early :
    (changes [10, 11]).length < 2 ∧ (Rsi.after 2 [10, 11]).value = some 100 ∧
      (Rsi.after 2 [10, 11, 13, 12]).value = some (300 / 7) ∧ wilderRsi 2 [10, 11, 13, 12] = 60 := by
  decide +kernel

end LongTrader.Indicators
