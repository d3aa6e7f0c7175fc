import LongTrader.Indicators.Ranges
import LongTrader.Strategy.Traders

/-! Traders whose configuration asks for more than their indicator can show: they never trade, whatever the
market does. -/

namespace LongTrader.Strategy.Traders

open Indicators
open Deviation (mean variance)
open Supertrend (Phase)

/-- A candle that opens and closes within its range. -/
def Candle.WellFormed (candle : Candle) : Prop :=
  ∀ low high, read candle.low = some low → read candle.high = some high →
    (∀ price, read candle.openPrice = some price → low ≤ price ∧ price ≤ high) ∧
      ∀ price, read candle.close = some price → low ≤ price ∧ price ≤ high

/-- The number of candles that a trader asks for. -/
def Trader.need : Trader → Nat
  | .adxTrend config => config.period * 3 + 10
  | .bbKeltnerSqueeze config => config.window * 2 + 10
  | .cvdDivergence config => config.period * 2 + 5
  | .dualThrust config => config.period + 5
  | .momentumFactor config => config.period * 3 + 10
  | .meanReversion config => config.period * 2 + 5
  | .ichimoku config => config.senkouBPeriod + config.kijunPeriod + 10
  | .bollingerV2 config => config.window
  | .macdBb config => config.macdSlow + config.macdSignal
  | .dmanV3 config => config.trendWindow
  | .irr _ | .xfundingLite _ => 0

/-- What a venue answers that sends well-formed candles, and no more than it was asked for. A limit of zero leaves
it to the venue. -/
def Trader.Fair (trader : Trader) (reading : Reading) : Prop :=
  ∀ candles, reading.candles = .ok candles →
    (0 < trader.need → candles.length ≤ trader.need) ∧ ∀ candle ∈ candles, candle.WellFormed

/-- A threshold, a band or a window that is out of the indicator's reach. The two traders without an indicator
compare a number of the market itself, and none is out of its reach. -/
def Trader.Still : Trader → Prop
  | .adxTrend config => 100 ≤ config.threshold
  | .bbKeltnerSqueeze config => 0 ≤ config.bbMult ∧ (config.window : ℚ) * 2 + 9 ≤ config.bbMult ^ 2
  | .cvdDivergence config => 0 ≤ config.zThreshold ∧ (config.period : ℚ) - 1 ≤ config.zThreshold ^ 2
  | .dualThrust config => 1 ≤ config.k1 ∧ 1 ≤ config.k2
  | .momentumFactor config => 50 ≤ config.velocityBand
  | .meanReversion config => 0 ≤ config.entryThreshold ∧ (config.period : ℚ) - 1 ≤ config.entryThreshold ^ 2
  | .ichimoku config => config.senkouBPeriod + config.kijunPeriod + 10 < config.tenkanPeriod
  | .bollingerV2 config => 0 < config.window ∧ 0 < config.squeezeThreshold ∧ 0 < config.mult ∧
      (config.window : ℚ) - 1 < config.mult ^ 2
  | .macdBb config => 0 < config.macdSlow + config.macdSignal ∧ config.macdSlow + config.macdSignal < config.bollWindow
  | .dmanV3 config => 0 < config.trendWindow ∧ config.trendWindow < max config.slowWindow config.fastWindow
  | .irr _ | .xfundingLite _ => False

section Signals

variable {candles : List Candle} {given : Signal}

theorem signalOf_flat {long short leavesLong leavesShort : Prop} [Decidable long] [Decidable short]
    [Decidable leavesLong] [Decidable leavesShort]
    (told : signalOf .flat long short leavesLong leavesShort = some given) : long ∨ short := by
  rw [signalOf] at told
  split at told
  · rename_i long
    exact .inl long
  · exact .inr (Option.ite_none_right_eq_some.mp told).1

theorem AdxTrendConfig.still {config : AdxTrendConfig} (high : 100 ≤ config.threshold) :
    config.signal .flat candles ≠ some given := by
  intro told
  simp only [AdxTrendConfig.signal, Option.bind_eq_bind, Option.bind_eq_some_iff] at told
  obtain ⟨adx, after, value, shown, _, _, _, _, told⟩ := told
  have most := Adx.value_le after shown
  rcases signalOf_flat told with ⟨above, _⟩ | ⟨above, _⟩
  · exact absurd (high.trans_lt above) most.not_gt
  · exact absurd (high.trans_lt above) most.not_gt

theorem barsOf_length_le (candles : List Candle) : (barsOf candles).length ≤ candles.length :=
  List.length_filterMap_le ..

theorem BbKeltnerSqueezeConfig.still {config : BbKeltnerSqueezeConfig} (nonneg : 0 ≤ config.bbMult)
    (wide : (config.window : ℚ) * 2 + 9 ≤ config.bbMult ^ 2) (asked : candles.length ≤ config.window * 2 + 10) :
    config.signal .flat candles ≠ some given := by
  intro told
  simp only [BbKeltnerSqueezeConfig.signal, Option.bind_eq_bind, Option.bind_eq_some_iff] at told
  obtain ⟨_, _, _, _, bands, joined, _, _, _, _, close, ends, told⟩ := told
  have computed := Option.join_eq_some_iff.mp joined
  obtain ⟨_, rfl⟩ := BollingerBands.compute_eq computed
  have count : (((barsOf candles).map Bar.close).length : ℚ) ≤ config.window * 2 + 10 := by
    rw [List.length_map]
    exact_mod_cast (barsOf_length_le candles).trans asked
  have inside := abs_le.mp (abs_sub_mean_le (List.mem_of_getLast? ends) nonneg (by linarith))
  rcases signalOf_flat told with ⟨_, above⟩ | ⟨_, below⟩
  · exact absurd above (by linarith : ¬_)
  · exact absurd below (by linarith : ¬_)

/-- A score over a window is within a threshold whose square is not below the window less one. -/
theorem score_within {period : Nat} {values : List ℚ} {z : Option ℚ} {threshold : ℚ}
    (shown : (ZScore.after period values).value Arithmetic.rational tolerance = some z) (nonneg : 0 ≤ threshold)
    (wide : (period : ℚ) - 1 ≤ threshold ^ 2) : |z.getD 0| ≤ threshold := by
  cases z with
  | none => simpa using nonneg
  | some score =>
    have most := ZScore.sq_le shown
    have fits : ((ZScore.after period values).buf.length : ℚ) ≤ period := by
      rw [ZScore.after_eq, recent, List.length_drop]
      exact_mod_cast (by omega : values.length - (values.length - period) ≤ period)
    exact abs_le_of_sq_le_sq (by simp only [Option.getD_some]; linarith) nonneg

theorem CvdDivergenceConfig.still {config : CvdDivergenceConfig} (nonneg : 0 ≤ config.zThreshold)
    (wide : (config.period : ℚ) - 1 ≤ config.zThreshold ^ 2) : config.signal .flat candles ≠ some given := by
  intro told
  rw [CvdDivergenceConfig.signal] at told
  obtain ⟨_, told⟩ := Option.ite_none_left_eq_some.mp told
  simp only [Option.bind_eq_bind, Option.bind_eq_some_iff] at told
  obtain ⟨z, shown, _, _, told⟩ := told
  have within := abs_le.mp (score_within shown nonneg wide)
  rcases signalOf_flat told with ⟨_, above⟩ | ⟨_, below⟩
  · exact absurd above within.2.not_gt
  · exact absurd below within.1.not_gt

theorem MeanReversionConfig.still {config : MeanReversionConfig} (nonneg : 0 ≤ config.entryThreshold)
    (wide : (config.period : ℚ) - 1 ≤ config.entryThreshold ^ 2) : config.signal .flat candles ≠ some given := by
  intro told
  rw [MeanReversionConfig.signal] at told
  obtain ⟨_, told⟩ := Option.ite_none_left_eq_some.mp told
  simp only [Option.bind_eq_bind, Option.bind_eq_some_iff] at told
  obtain ⟨z, shown, score, rfl, told⟩ := told
  have bound := score_within shown nonneg wide
  rw [Option.getD_some] at bound
  have within := abs_le.mp bound
  rw [if_neg within.2.not_gt, if_neg within.1.not_gt] at told
  cases told

theorem MomentumFactorConfig.still {config : MomentumFactorConfig} (wide : 50 ≤ config.velocityBand) :
    config.signal .flat candles ≠ some given := by
  intro told
  simp only [MomentumFactorConfig.signal, Option.bind_eq_bind, Option.bind_eq_some_iff] at told
  obtain ⟨rsi, shown, _, _, _, _, told⟩ := told
  obtain ⟨least, most⟩ := Rsi.value_range shown
  rcases signalOf_flat told with ⟨_, above⟩ | ⟨_, below⟩
  · linarith
  · linarith

theorem IchimokuConfig.still {config : IchimokuConfig}
    (long : config.senkouBPeriod + config.kijunPeriod + 10 < config.tenkanPeriod)
    (asked : candles.length ≤ config.senkouBPeriod + config.kijunPeriod + 10) :
    config.signal .flat candles ≠ some given := by
  intro told
  rw [IchimokuConfig.signal] at told
  obtain ⟨_, told⟩ := Option.ite_none_left_eq_some.mp told
  obtain ⟨tenkan, shown, _⟩ := Option.bind_eq_some_iff.mp told
  have short : (barsOf candles).length < config.tenkanPeriod :=
    ((barsOf_length_le candles).trans asked).trans_lt long
  rw [lineValue, windowExtremes, if_pos short] at shown
  cases shown

/-- The last bar is within the channel, so that a break of a whole range from the open is beyond it. -/
theorem DualThrustConfig.still {config : DualThrustConfig} (up : 1 ≤ config.k1) (down : 1 ≤ config.k2)
    (wellFormed : ∀ candle ∈ candles, candle.WellFormed) : config.signal .flat candles ≠ some given := by
  intro told
  simp only [DualThrustConfig.signal, Option.bind_eq_bind, Option.bind_eq_some_iff] at told
  obtain ⟨upper, most, lower, least, last, ends, told⟩ := told
  have channel : (openBarsOf candles).foldl (fun dc bar => dc.push bar.high bar.low)
      (DonchianChannel.new config.period) =
        ⟨config.period, recent config.period ((openBarsOf candles).map fun bar => (bar.high, bar.low))⟩ := by
    rw [← DonchianChannel.after_eq, List.foldl_map]
  rw [channel] at most least
  have ranged : ((openBarsOf candles).map fun bar => (bar.high, bar.low)).getLast? = some (last.high, last.low) := by
    rw [List.getLast?_map, ends]
    rfl
  have member := @last_mem_recent _ config.period _ _ ranged (by
    intro empty
    rw [empty] at most
    cases most)
  have high : last.high ≤ upper := DonchianChannel.le_upper most member
  have low : lower ≤ last.low := DonchianChannel.lower_le least member
  obtain ⟨candle, among, decoded⟩ := List.mem_filterMap.mp (List.mem_of_getLast? ends)
  simp only [Option.bind_eq_bind, Option.bind_eq_some_iff, Option.pure_def, Option.some.injEq] at decoded
  obtain ⟨top, topRead, bottom, bottomRead, close, closeRead, opened, openRead, rfl⟩ := decoded
  obtain ⟨opens, closes⟩ := wellFormed candle among bottom top bottomRead topRead
  obtain ⟨openLow, openHigh⟩ := opens opened openRead
  obtain ⟨closeLow, closeHigh⟩ := closes close closeRead
  have range : 0 ≤ upper - lower := by linarith
  have wideUp : upper - lower ≤ config.k1 * (upper - lower) := le_mul_of_one_le_left range up
  have wideDown : upper - lower ≤ config.k2 * (upper - lower) := le_mul_of_one_le_left range down
  rcases signalOf_flat told with above | below
  · linarith
  · linarith

end Signals

section Advice

variable {candles : List Candle} {has : Bool}

theorem closesOf_length_le (candles : List Candle) : (closesOf candles).length ≤ candles.length :=
  List.length_filterMap_le ..

/-- Bands that are not squeezed have every close between them, if their multiple is large enough. -/
theorem bollingerSignal_inside {close squeeze mult : ℚ} {closes : List ℚ} {advice : Advice} (squeezes : 0 < squeeze)
    (member : close ∈ closes) (positive : 0 < mult) (wide : (closes.length : ℚ) - 1 < mult ^ 2)
    (told : bollingerSignal close ⟨mean closes, mean closes + decimalSqrt (variance closes) * mult,
      mean closes - decimalSqrt (variance closes) * mult⟩ squeeze = some advice) : advice = .noTrade := by
  obtain ⟨width, divided, told⟩ := Option.bind_eq_some_iff.mp told
  obtain rfl := Option.some.inj told
  by_cases squeezed : width < squeeze
  · rw [if_pos squeezed]
  obtain ⟨nonzero, ratio⟩ : mean closes ≠ 0 ∧
      (2 * (decimalSqrt (variance closes) * mult)) / mean closes = width := by
    obtain ⟨nonzero, same⟩ := Option.ite_none_left_eq_some.mp divided
    exact ⟨nonzero, by rw [← Option.some.inj same]; ring⟩
  have spread : 0 < decimalSqrt (variance closes) := by
    refine (decimalSqrt_nonneg _).lt_of_ne fun flat => squeezed ?_
    rw [← ratio, ← flat, zero_mul, mul_zero, zero_div]
    exact squeezes
  have inside := abs_lt.mp (abs_sub_mean_lt member positive.le wide spread)
  rw [if_neg squeezed, if_neg (by linarith), if_neg (by linarith)]

theorem BollingerV2Config.still {config : BollingerV2Config} (squeezes : 0 < config.squeezeThreshold)
    (positive : 0 < config.mult) (wide : (config.window : ℚ) - 1 < config.mult ^ 2)
    (asked : candles.length ≤ config.window) : config.next has candles = none := by
  refine Option.eq_none_iff_forall_ne_some.mpr fun position told => ?_
  simp only [BollingerV2Config.next, Option.bind_eq_bind, Option.bind_eq_some_iff] at told
  obtain ⟨bands, joined, close, ends, advice, advised, told⟩ := told
  obtain ⟨_, rfl⟩ := BollingerBands.compute_eq (Option.join_eq_some_iff.mp joined)
  have count : ((closesOf candles).length : ℚ) ≤ config.window := by
    exact_mod_cast (closesOf_length_le candles).trans asked
  obtain rfl := bollingerSignal_inside squeezes (List.mem_of_getLast? ends) positive (by linarith) advised
  cases told

theorem MacdBbConfig.still {config : MacdBbConfig} (long : config.macdSlow + config.macdSignal < config.bollWindow)
    (asked : candles.length ≤ config.macdSlow + config.macdSignal) : config.next has candles = none := by
  have short : (closesOf candles).length < max (config.macdSlow + config.macdSignal) config.bollWindow :=
    ((closesOf_length_le candles).trans asked).trans_lt (lt_max_of_lt_right long)
  rw [MacdBbConfig.next, macdBbSignal, if_pos short]
  rfl

theorem DmanV3Config.still {config : DmanV3Config}
    (long : config.trendWindow < max config.slowWindow config.fastWindow)
    (asked : candles.length ≤ config.trendWindow) : config.next has candles = none := by
  have short : (closesOf candles).length <
      max (max config.trendWindow config.slowWindow) config.fastWindow := by
    rw [max_assoc]
    exact ((closesOf_length_le candles).trans asked).trans_lt (lt_max_of_lt_right long)
  rw [DmanV3Config.next, dmanSignal, if_pos short]
  rfl

end Advice

/-- A trader of two sides that gives no signal for any of the candles decides nothing. -/
theorem bySignal_still {signal : Phase → List Candle → Option Signal} {reading : Reading}
    (still : ∀ candles, reading.candles = .ok candles → ∀ given, signal .flat candles ≠ some given) :
    bySignal signal .flat reading = none := by
  rw [bySignal]
  cases answered : reading.candles with
  | error problem => rfl
  | ok candles =>
    have silent := Option.eq_none_iff_forall_ne_some.mpr (still candles answered)
    simp [Except.toOption, silent]

theorem byPosition_still {next : Bool → List Candle → Option Bool} {reading : Reading}
    (still : ∀ candles, reading.candles = .ok candles → next false candles = none) :
    byPosition (fun has => reading.candles.toOption.bind (next has)) .flat = none := by
  rw [byPosition]
  cases answered : reading.candles with
  | error problem => rfl
  | ok candles => simp [Except.toOption, still candles answered]

theorem Trader.Still.decides_nothing {trader : Trader} (still : trader.Still) {reading : Reading}
    (fair : trader.Fair reading) : trader.decide .flat reading = none := by
  cases trader with
  | adxTrend config => exact bySignal_still fun _ _ _ => AdxTrendConfig.still still
  | bbKeltnerSqueeze config =>
    exact bySignal_still fun candles answered _ =>
      BbKeltnerSqueezeConfig.still still.1 still.2 ((fair candles answered).1 (Nat.succ_pos _))
  | cvdDivergence config => exact bySignal_still fun _ _ _ => CvdDivergenceConfig.still still.1 still.2
  | dualThrust config =>
    exact bySignal_still fun candles answered _ => DualThrustConfig.still still.1 still.2 (fair candles answered).2
  | momentumFactor config => exact bySignal_still fun _ _ _ => MomentumFactorConfig.still still
  | meanReversion config => exact bySignal_still fun _ _ _ => MeanReversionConfig.still still.1 still.2
  | ichimoku config =>
    exact bySignal_still fun candles answered _ =>
      IchimokuConfig.still still ((fair candles answered).1 (Nat.succ_pos _))
  | bollingerV2 config =>
    obtain ⟨asks, squeezes, positive, wide⟩ := still
    exact byPosition_still fun candles answered =>
      BollingerV2Config.still squeezes positive wide ((fair candles answered).1 asks)
  | macdBb config =>
    exact byPosition_still fun candles answered => MacdBbConfig.still still.2 ((fair candles answered).1 still.1)
  | dmanV3 config =>
    exact byPosition_still fun candles answered => DmanV3Config.still still.2 ((fair candles answered).1 still.1)
  | irr config => exact still.elim
  | xfundingLite config => exact still.elim

/-- Whatever the market does and whatever the venue answers, nothing is ever submitted. -/
theorem Trader.still_never_trades (trader : Trader) (still : trader.Still) (readings : List Reading)
    (fair : ∀ reading ∈ readings, trader.Fair reading) : trader.run readings = (.flat, []) := by
  induction readings with
  | nil => rfl
  | cons reading rest ih =>
    obtain ⟨here, later⟩ := List.forall_mem_cons.mp fair
    have quiet : trader.tick .flat reading = (.flat, []) := by
      rw [Trader.tick, still.decides_nothing here]
    rw [Trader.run, ticks, quiet]
    exact congrArg (Prod.map id ([] ++ ·)) (ih later)

/-- Whatever the configuration of a trader that watches no candles, there is a number that it trades on. -/
theorem Trader.acts_without_candles {trader : Trader} (uses : (∃ config, trader = .irr config) ∨
    ∃ config, trader = .xfundingLite config) : ∃ reading, (trader.decide .flat reading).isSome := by
  rcases uses with ⟨config, rfl⟩ | ⟨config, rfl⟩
  · refine ⟨⟨.ok [], some (config.entryThreshold + 1), .ok 0, true⟩, ?_⟩
    simp [Trader.decide, byPosition, IrrConfig.next]
  · refine ⟨⟨.ok [], none, .ok config.enterThreshold, true⟩, ?_⟩
    simp [Trader.decide, XfundingLiteConfig.next, Except.toOption]

/-- A candle that rises over the whole of its range. -/
def risen : Candle := ⟨some (.ok 1), some (.ok 4), some (.ok 1), some (.ok 4)⟩

theorem risen_wellFormed : risen.WellFormed := by
  intro low high lowRead highRead
  obtain rfl : 1 = low := Option.some.inj lowRead
  obtain rfl : 4 = high := Option.some.inj highRead
  refine ⟨fun price told => ?_, fun price told => ?_⟩
  · obtain rfl : 1 = price := Option.some.inj told
    norm_num
  · obtain rfl : 4 = price := Option.some.inj told
    norm_num

/-- A break out of one range or more is not seen in the largest rise that there is. -/
theorem still_never_trades_dual_thrust :
    (Trader.dualThrust ⟨⟨⟨"mock", ""⟩, "BTCUSDT"⟩, 1, 1, 1, 1⟩).run [⟨.ok [risen], none, .ok 0, true⟩] = (.flat, []) := by
  have still : (Trader.dualThrust ⟨⟨⟨"mock", ""⟩, "BTCUSDT"⟩, 1, 1, 1, 1⟩).Still := ⟨le_rfl, le_rfl⟩
  apply Trader.still_never_trades _ still
  rw [List.forall_mem_singleton]
  intro candles answered
  obtain rfl : [risen] = candles := Except.ok.inj answered
  exact ⟨fun _ => by decide, List.forall_mem_singleton.mpr risen_wellFormed⟩

end LongTrader.Strategy.Traders
