import LongTrader.Indicators.Rational
import LongTrader.Indicators.Supertrend
import LongTrader.Runs
import Mathlib.Algebra.Order.Group.Abs

/-! The Supertrend line as a trailing stop, over exact rationals: a band is carried over only while the
close sits on it, so that the line follows the basic band back. -/

namespace LongTrader.Indicators

/-- The Average True Range with a bar, from the one before it. -/
def Bar.rangeAfter (bar : Bar) (period : Nat) (range prev : ℚ) : ℚ :=
  (range * (period - 1) + bar.trueRange prev) / period

section Atr

variable {atr : Atr ℚ}

theorem Atr.trueRange_total (atr : Atr ℚ) (high low : ℚ) :
    ∃ range, atr.trueRange Arithmetic.rational high low = some range := by
  unfold Atr.trueRange
  rcases atr.prevClose with _ | prev
  · exact ⟨_, rfl⟩
  · exact ⟨_, rfl⟩

/-- While the range has no value, a push cannot panic. -/
theorem Atr.push_seed (positive : 0 < atr.period) (cold : atr.rmaValue = none) (bar : Bar) :
    ∃ next, atr.push Arithmetic.rational bar.high bar.low bar.close = some next ∧
      next.period = atr.period ∧ next.prevClose = some bar.close := by
  obtain ⟨range, ranged⟩ := atr.trueRange_total bar.high bar.low
  have divisor : (atr.period : ℚ) ≠ 0 := by exact_mod_cast positive.ne'
  rw [Atr.push, ranged, cold]
  by_cases full : atr.period ≤ atr.samples + 1
  · simp [rational_div, full, divisor]
  · simp [full]

theorem Atr.push_smoothed (positive : 0 < atr.period) {range prev : ℚ} (held : atr.rmaValue = some range)
    (seen : atr.prevClose = some prev) (bar : Bar) :
    atr.push Arithmetic.rational bar.high bar.low bar.close = some { atr with
      prevClose := some bar.close, rmaValue := some (bar.rangeAfter atr.period range prev) } := by
  have divisor : (atr.period : ℚ) ≠ 0 := by exact_mod_cast positive.ne'
  have ranged : atr.trueRange Arithmetic.rational bar.high bar.low = some (bar.trueRange prev) := by
    rw [Atr.trueRange, seen]
    change some (Arithmetic.rational.max (Arithmetic.rational.max (bar.high - bar.low) |bar.high - prev|)
      |bar.low - prev|) = _
    rw [rational_max, rational_max, Bar.trueRange]
  rw [Atr.push, ranged, held]
  simp [rational_div, divisor, Bar.rangeAfter]

end Atr

section Line

variable {st : Supertrend ℚ} {bar : Bar}

/-- The push of a bar, which cannot panic in a state that the bars lead to. -/
def Supertrend.step (st : Supertrend ℚ) (bar : Bar) : Supertrend ℚ :=
  (st.push Arithmetic.rational bar.high bar.low bar.close).getD st

/-- The upper band of a bar, before any is carried over. -/
def Supertrend.basicUpper (st : Supertrend ℚ) (bar : Bar) (range prev : ℚ) : ℚ :=
  (bar.high + bar.low) / 2 + bar.rangeAfter st.atr.period range prev * st.multiplier

/-- The lower band of a bar, before any is carried over. -/
def Supertrend.basicLower (st : Supertrend ℚ) (bar : Bar) (range prev : ℚ) : ℚ :=
  (bar.high + bar.low) / 2 - bar.rangeAfter st.atr.period range prev * st.multiplier

/-- What the bars of a run leave: no bands before the range has a value, both of them from then on, and
the one that the direction trails as the value. -/
structure Supertrend.Traced (st : Supertrend ℚ) : Prop where
  period : 0 < st.atr.period
  close : st.atr.prevClose = st.prevClose
  cold : st.atr.rmaValue = none → st.direction = .flat ∧ st.prevUpper = none
  warm : st.atr.rmaValue.isSome → ∃ upper lower prev, st.prevUpper = some upper ∧
    st.prevLower = some lower ∧ st.prevClose = some prev ∧
    (st.direction = .up ∧ st.value = some lower ∨ st.direction = .down ∧ st.value = some upper)

theorem Supertrend.Traced.new (period : Nat) (multiplier : ℚ) :
    (Supertrend.new Arithmetic.rational period multiplier).Traced :=
  ⟨Nat.lt_of_lt_of_le Nat.one_pos (le_max_right ..), rfl, fun _ => ⟨rfl, rfl⟩, nofun⟩

/-- A push once the range has a value. -/
theorem Supertrend.push_warm (positive : 0 < st.atr.period) {range prev : ℚ}
    (held : st.atr.rmaValue = some range) (seen : st.atr.prevClose = some prev) (bar : Bar) :
    let upper := st.upper Arithmetic.rational (st.basicUpper bar range prev) bar.close
    let lower := st.lower Arithmetic.rational (st.basicLower bar range prev) bar.close
    st.push Arithmetic.rational bar.high bar.low bar.close = some { st with
      atr := { st.atr with
        prevClose := some bar.close, rmaValue := some (bar.rangeAfter st.atr.period range prev) }
      direction := st.turn Arithmetic.rational bar.close
      value := some (if st.turn Arithmetic.rational bar.close = .down then upper else lower)
      prevUpper := some upper
      prevLower := some lower
      prevClose := some bar.close } := by
  rw [Supertrend.push, Atr.push_smoothed positive held seen]
  simp only [Supertrend.basicUpper, Supertrend.basicLower, Option.bind_eq_bind, Option.bind_some, rational_add,
    rational_sub, rational_mul, rational_ofNat, Nat.cast_ofNat, rational_div _ two_ne_zero]
  rcases st.turn Arithmetic.rational bar.close <;> rfl

/-- A push is never a panic, and leaves what the bars of a run leave. -/
theorem Supertrend.Traced.push (traced : st.Traced) (bar : Bar) :
    ∃ next, st.push Arithmetic.rational bar.high bar.low bar.close = some next ∧ next.Traced := by
  cases held : st.atr.rmaValue with
  | none =>
    obtain ⟨atr, pushed, period, close⟩ := Atr.push_seed traced.period held bar
    obtain ⟨flat, none_upper⟩ := traced.cold held
    have positive : 0 < atr.period := period ▸ traced.period
    rw [Supertrend.push, pushed]
    cases warm : atr.rmaValue with
    | none =>
      refine ⟨_, by rw [Option.bind_eq_bind, Option.bind_some, warm]; rfl, ?_⟩
      exact ⟨positive, close, fun _ => ⟨flat, none_upper⟩, fun some_range => by simp [warm] at some_range⟩
    | some range =>
      have up : st.turn Arithmetic.rational bar.close = .up := by rw [Supertrend.turn, none_upper]
      simp only [Option.bind_eq_bind, Option.bind_some, warm, rational_add, rational_sub, rational_mul,
        rational_ofNat, rational_div _ (Nat.cast_ne_zero.mpr two_ne_zero), up]
      exact ⟨_, rfl, positive, close, fun cold => by simp [warm] at cold,
        fun _ => ⟨_, _, _, rfl, rfl, rfl, .inl ⟨rfl, rfl⟩⟩⟩
  | some range =>
    obtain ⟨upper, lower, prev, _, _, some_prev, _⟩ := traced.warm (by simp [held])
    refine ⟨_, Supertrend.push_warm traced.period held (traced.close.trans some_prev) bar, traced.period,
      rfl, fun cold => absurd cold (Option.some_ne_none _), fun _ => ⟨_, _, _, rfl, rfl, rfl, ?_⟩⟩
    have directed := @Supertrend.turn_ne_flat ℚ Arithmetic.rational st bar.close
    rcases turned : st.turn Arithmetic.rational bar.close
    · exact .inl ⟨rfl, rfl⟩
    · exact .inr ⟨rfl, rfl⟩
    · exact absurd turned directed

theorem Supertrend.Traced.step (traced : st.Traced) (bar : Bar) : (st.step bar).Traced := by
  obtain ⟨next, pushed, kept⟩ := traced.push bar
  rwa [Supertrend.step, pushed]

/-- The line is a trailing stop at a push: it does not fall while the direction stays up, and does not
rise while it stays down. -/
structure Supertrend.Ratchets (st : Supertrend ℚ) (bar : Bar) : Prop where
  returns : (st.push Arithmetic.rational bar.high bar.low bar.close).isSome
  up : st.direction = .up → (st.step bar).direction = .up →
    ∀ before ∈ st.value, ∀ after ∈ (st.step bar).value, before ≤ after
  down : st.direction = .down → (st.step bar).direction = .down →
    ∀ before ∈ st.value, ∀ after ∈ (st.step bar).value, after ≤ before

/-- A bar that does not break the line either closes on it, behind a close that did not break it, or has
a basic band that is no worse than the line. -/
structure Supertrend.Trails (st : Supertrend ℚ) (bar : Bar) : Prop where
  up : st.direction = .up → ∀ line ∈ st.prevLower, ∀ prev ∈ st.prevClose, ∀ range ∈ st.atr.rmaValue,
    line ≤ bar.close → line ≤ prev ∧ bar.close = line ∨ line ≤ st.basicLower bar range prev
  down : st.direction = .down → ∀ line ∈ st.prevUpper, ∀ prev ∈ st.prevClose, ∀ range ∈ st.atr.rmaValue,
    bar.close ≤ line → prev ≤ line ∧ bar.close = line ∨ st.basicUpper bar range prev ≤ line

theorem Supertrend.le_lower_iff {line prev close : ℚ} (band : st.prevLower = some line)
    (seen : st.prevClose = some prev) (unbroken : line ≤ close) (basic : ℚ) :
    line ≤ st.lower Arithmetic.rational basic close ↔ line ≤ prev ∧ close = line ∨ line ≤ basic := by
  rw [Supertrend.lower, band, seen]
  by_cases carried : line ≤ prev ∧ close ≤ line
  · have sits : close = line := le_antisymm carried.2 unbroken
    simp [carried.1, sits]
  · have moved : ¬ (line ≤ prev ∧ close = line) := fun sits => carried ⟨sits.1, sits.2.le⟩
    simp [moved, if_neg carried]

theorem Supertrend.upper_le_iff {line prev close : ℚ} (band : st.prevUpper = some line)
    (seen : st.prevClose = some prev) (unbroken : close ≤ line) (basic : ℚ) :
    st.upper Arithmetic.rational basic close ≤ line ↔ prev ≤ line ∧ close = line ∨ basic ≤ line := by
  rw [Supertrend.upper, band, seen]
  by_cases carried : prev ≤ line ∧ line ≤ close
  · have sits : close = line := le_antisymm unbroken carried.2
    simp [carried.1, sits]
  · have moved : ¬ (prev ≤ line ∧ close = line) := fun sits => carried ⟨sits.1, sits.2.ge⟩
    simp [moved, if_neg carried]

/-- What a push publishes once the range has a value. -/
theorem Supertrend.step_warm (positive : 0 < st.atr.period) {range prev : ℚ}
    (held : st.atr.rmaValue = some range) (seen : st.atr.prevClose = some prev) (bar : Bar) :
    (st.step bar).direction = st.turn Arithmetic.rational bar.close ∧
      (st.step bar).value = some (if st.turn Arithmetic.rational bar.close = .down
        then st.upper Arithmetic.rational (st.basicUpper bar range prev) bar.close
        else st.lower Arithmetic.rational (st.basicLower bar range prev) bar.close) := by
  rw [Supertrend.step, Supertrend.push_warm positive held seen]
  exact ⟨rfl, rfl⟩

theorem Supertrend.Traced.directed (traced : st.Traced) (directed : st.direction ≠ .flat) :
    st.atr.rmaValue.isSome := by
  rw [← Option.ne_none_iff_isSome]
  exact fun cold => directed (traced.cold cold).1

/-- Up and up. -/
theorem Supertrend.Traced.rises_iff (traced : st.Traced) (bar : Bar) :
    (st.direction = .up → (st.step bar).direction = .up →
      ∀ before ∈ st.value, ∀ after ∈ (st.step bar).value, before ≤ after) ↔
    (st.direction = .up → ∀ line ∈ st.prevLower, ∀ prev ∈ st.prevClose, ∀ range ∈ st.atr.rmaValue,
      line ≤ bar.close → line ≤ prev ∧ bar.close = line ∨ line ≤ st.basicLower bar range prev) := by
  refine imp_congr_right fun up => ?_
  have warm := traced.directed (by rw [up]; nofun)
  obtain ⟨range, held⟩ := Option.isSome_iff_exists.mp warm
  obtain ⟨upper, lower, prev, some_upper, some_lower, some_prev, trails⟩ := traced.warm warm
  have value : st.value = some lower := by
    rcases trails with ⟨_, value⟩ | ⟨down, _⟩
    · exact value
    · rw [up] at down
      cases down
  obtain ⟨direction, after⟩ :=
    Supertrend.step_warm traced.period held (traced.close.trans some_prev) bar
  have stays : st.turn Arithmetic.rational bar.close = .up ↔ lower ≤ bar.close := by
    rw [Supertrend.turn, some_upper, some_lower, up]
    by_cases broken : bar.close < lower
    · simp [broken, broken.not_ge]
    · simp [broken, not_lt.mp broken]
  simp only [direction, after, value, some_lower, some_prev, held, Option.mem_some_iff, forall_eq']
  refine imp_congr_ctx stays fun unbroken => ?_
  rw [stays.mpr unbroken, if_neg (by decide)]
  exact Supertrend.le_lower_iff some_lower some_prev unbroken _

/-- Down and down. -/
theorem Supertrend.Traced.falls_iff (traced : st.Traced) (bar : Bar) :
    (st.direction = .down → (st.step bar).direction = .down →
      ∀ before ∈ st.value, ∀ after ∈ (st.step bar).value, after ≤ before) ↔
    (st.direction = .down → ∀ line ∈ st.prevUpper, ∀ prev ∈ st.prevClose, ∀ range ∈ st.atr.rmaValue,
      bar.close ≤ line → prev ≤ line ∧ bar.close = line ∨ st.basicUpper bar range prev ≤ line) := by
  refine imp_congr_right fun down => ?_
  have warm := traced.directed (by rw [down]; nofun)
  obtain ⟨range, held⟩ := Option.isSome_iff_exists.mp warm
  obtain ⟨upper, lower, prev, some_upper, some_lower, some_prev, trails⟩ := traced.warm warm
  have value : st.value = some upper := by
    rcases trails with ⟨up, _⟩ | ⟨_, value⟩
    · rw [down] at up
      cases up
    · exact value
  obtain ⟨direction, after⟩ :=
    Supertrend.step_warm traced.period held (traced.close.trans some_prev) bar
  have stays : st.turn Arithmetic.rational bar.close = .down ↔ bar.close ≤ upper := by
    rw [Supertrend.turn, some_upper, some_lower, down]
    by_cases broken : upper < bar.close
    · simp [broken, broken.not_ge]
    · simp [broken, not_lt.mp broken]
  simp only [direction, after, value, some_upper, some_prev, held, Option.mem_some_iff, forall_eq']
  refine imp_congr_ctx stays fun unbroken => ?_
  rw [stays.mpr unbroken, if_pos rfl]
  exact Supertrend.upper_le_iff some_upper some_prev unbroken _

/-- At a push that a run leads to, the line is a trailing stop exactly where the bar trails it. -/
theorem Supertrend.Traced.ratchets_iff (traced : st.Traced) (bar : Bar) : st.Ratchets bar ↔ st.Trails bar := by
  obtain ⟨next, pushed, _⟩ := traced.push bar
  constructor
  · intro ratchets
    exact ⟨(traced.rises_iff bar).mp ratchets.up, (traced.falls_iff bar).mp ratchets.down⟩
  · intro trails
    exact ⟨by rw [pushed]; rfl, (traced.rises_iff bar).mpr trails.up, (traced.falls_iff bar).mpr trails.down⟩

end Line

/-- The line is a trailing stop along a run exactly if each of its bars trails it. -/
theorem supertrend_ratchets_iff (period : Nat) (multiplier : ℚ) (bars : List Bar) :
    let start := Supertrend.new Arithmetic.rational period multiplier
    Runs.Along Supertrend.step Supertrend.Ratchets start bars ↔
      Runs.Along Supertrend.step Supertrend.Trails start bars :=
  @Runs.along_congr _ _ _ Supertrend.Traced _ _ (fun _ bar traced => traced.ratchets_iff bar)
    (fun _ bar traced _ => traced.step bar) _ (.new period multiplier) bars

/-- A rise and a pull-back that stays above the line. -/
def pullBack : List Bar := [⟨11, 9, 10⟩, ⟨12, 10, 11⟩, ⟨11, 9, 10⟩]

theorem supertrend_falls_back :
    (∀ bar ∈ pullBack, bar.WellFormed) ∧
      let st := Supertrend.new Arithmetic.rational 1 2
      let before := (pullBack.take 2).foldl Supertrend.step st
      let after := pullBack.foldl Supertrend.step st
      (before.direction = .up ∧ before.value = some 7) ∧ after.direction = .up ∧ after.value = some 6 := by
  refine ⟨fun bar member => ?_, by decide +kernel⟩
  simp only [pullBack, List.mem_cons, List.not_mem_nil, or_false] at member
  rcases member with rfl | rfl | rfl <;> constructor <;> decide +kernel

end LongTrader.Indicators
