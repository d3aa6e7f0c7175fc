import LongTrader.Indicators.Channels
import LongTrader.Indicators.Rsi
import LongTrader.Strategy.Quoting
import LongTrader.Strategy.Supertrend

/-! The traders of one unit: they watch a signal, open a position of the configured quantity with one market
order and close it with another. What they hold is written after the venue has accepted. -/

namespace LongTrader.Strategy.Traders

open Indicators
open Supertrend (Phase)
open Quoting (CommonParams)

/-- `market.v1.Candle`, each price decoded if there is one. -/
structure Candle where
  openPrice : Option (Except DecimalConvertError ℚ)
  high : Option (Except DecimalConvertError ℚ)
  low : Option (Except DecimalConvertError ℚ)
  close : Option (Except DecimalConvertError ℚ)

/-- What a trader reads in a cycle, and whether the venue accepts its order. -/
structure Reading where
  candles : Except PortError (List Candle)
  predictedReturn : Option ℚ
  fundingRate : Except PortError ℚ
  accepted : Bool

def read (price : Option (Except DecimalConvertError ℚ)) : Option ℚ := price.bind Except.toOption

/-- The bars of the candles that have a high, a low and a close. -/
def barsOf (candles : List Candle) : List Bar :=
  candles.filterMap fun candle => do
    let high ← read candle.high
    let low ← read candle.low
    let close ← read candle.close
    return ⟨high, low, close⟩

def closesOf (candles : List Candle) : List ℚ := candles.filterMap fun candle => read candle.close

/-- `Decimal::new(1, 8)`. -/
def tolerance : ℚ := 1 / 10 ^ 8

/-- What a trader with two sides does next. -/
inductive Signal where
  | enter (isBuy : Bool)
  | exit
  deriving DecidableEq, Repr

def Signal.target : Signal → Phase
  | .enter true => .long
  | .enter false => .short
  | .exit => .flat

/-- The side of the order for a signal. -/
def Signal.isBuy (held : Phase) : Signal → Bool
  | .enter isBuy => isBuy
  | .exit => held.exitSide

/-- A signal by what is held: one way in, one way out of each side. -/
def signalOf (held : Phase) (long short leavesLong leavesShort : Prop) [Decidable long] [Decidable short]
    [Decidable leavesLong] [Decidable leavesShort] : Option Signal :=
  match held with
  | .flat => if long then some (.enter true) else if short then some (.enter false) else none
  | .long => if leavesLong then some .exit else none
  | .short => if leavesShort then some .exit else none

section AdxTrend

structure AdxTrendConfig where
  common : CommonParams
  period : Nat
  threshold : ℚ
  qty : ℚ

def AdxTrendConfig.signal (config : AdxTrendConfig) (held : Phase) (candles : List Candle) : Option Signal := do
  let adx ← Adx.after config.period (barsOf candles)
  let adxVal ← adx.value
  let plusDi ← adx.plusDi
  let minusDi ← adx.minusDi
  signalOf held (config.threshold < adxVal ∧ minusDi < plusDi) (config.threshold < adxVal ∧ plusDi < minusDi)
    (adxVal < config.threshold ∨ plusDi < minusDi) (adxVal < config.threshold ∨ minusDi < plusDi)

end AdxTrend

section BbKeltnerSqueeze

structure BbKeltnerSqueezeConfig where
  common : CommonParams
  window : Nat
  bbMult : ℚ
  kcMult : ℚ
  qty : ℚ

def BbKeltnerSqueezeConfig.signal (config : BbKeltnerSqueezeConfig) (held : Phase) (candles : List Candle) :
    Option Signal := do
  let bars := barsOf candles
  let closes := bars.map Bar.close
  let empty ← KeltnerChannel.new config.window config.window config.kcMult
  let kc ← bars.foldlM KeltnerChannel.push empty
  let bands ← (BollingerBands.compute Arithmetic.rational tolerance closes config.bbMult).join
  let kcUpper ← kc.upper
  let kcLower ← kc.lower
  let lastClose ← closes.getLast?
  let squeezed : Prop := bands.upper < kcUpper ∧ kcLower < bands.lower
  signalOf held (squeezed ∧ bands.upper < lastClose) (squeezed ∧ lastClose < bands.lower) (¬squeezed) (¬squeezed)

end BbKeltnerSqueeze

section CvdDivergence

structure CvdDivergenceConfig where
  common : CommonParams
  period : Nat
  zThreshold : ℚ
  qty : ℚ

def barDelta (bar : Bar) : ℚ :=
  let mid := (bar.high + bar.low) / 2
  let range := max (bar.high - bar.low) 0
  if mid < bar.close then range else if bar.close < mid then -range else 0

/-- The sums of the first values, by how many. -/
def cumulated (acc : ℚ) : List ℚ → List ℚ
  | [] => []
  | delta :: rest => (acc + delta) :: cumulated (acc + delta) rest

def CvdDivergenceConfig.signal (config : CvdDivergenceConfig) (held : Phase) (candles : List Candle) :
    Option Signal :=
  let bars := barsOf candles
  let closes := bars.map Bar.close
  if bars.length < config.period then none
  else do
    let z ← (ZScore.after config.period (cumulated 0 (bars.map barDelta))).value Arithmetic.rational tolerance
    let first ← closes[closes.length - config.period]?
    let priceMove := closes.getLast?.getD 0 - first
    let long : Prop := priceMove < 0 ∧ config.zThreshold < z.getD 0
    let short : Prop := 0 < priceMove ∧ z.getD 0 < -config.zThreshold
    signalOf held long short (¬long) (¬short)

end CvdDivergence

section DualThrust

structure DualThrustConfig where
  common : CommonParams
  period : Nat
  k1 : ℚ
  k2 : ℚ
  qty : ℚ

/-- A bar with its open. -/
structure OpenBar extends Bar where
  openPrice : ℚ

def openBarsOf (candles : List Candle) : List OpenBar :=
  candles.filterMap fun candle => do
    let high ← read candle.high
    let low ← read candle.low
    let close ← read candle.close
    let openPrice ← read candle.openPrice
    return ⟨⟨high, low, close⟩, openPrice⟩

def DualThrustConfig.signal (config : DualThrustConfig) (held : Phase) (candles : List Candle) :
    Option Signal := do
  let bars := openBarsOf candles
  let dc := bars.foldl (fun dc bar => dc.push bar.high bar.low) (DonchianChannel.new config.period)
  let upper ← dc.upper
  let lower ← dc.lower
  let last ← bars.getLast?
  let range := upper - lower
  let buyTrigger := last.openPrice + config.k1 * range
  let sellTrigger := last.openPrice - config.k2 * range
  signalOf held (buyTrigger < last.close) (last.close < sellTrigger) (last.close < last.openPrice)
    (last.openPrice < last.close)

end DualThrust

section MomentumFactor

structure MomentumFactorConfig where
  common : CommonParams
  period : Nat
  returnThreshold : ℚ
  velocityBand : ℚ
  qty : ℚ

def MomentumFactorConfig.signal (config : MomentumFactorConfig) (held : Phase) (candles : List Candle) :
    Option Signal := do
  let closes := closesOf candles
  let rsi ← (Rsi.after config.period closes).value
  let oldClose ← closes[closes.length - (config.period + 1)]?
  let lastClose ← closes.getLast?
  let rawReturn := if 0 < oldClose then (lastClose - oldClose) / oldClose else 0
  signalOf held (config.returnThreshold < rawReturn ∧ 50 + config.velocityBand < rsi)
    (rawReturn < -config.returnThreshold ∧ rsi < 50 - config.velocityBand)
    (rawReturn < config.returnThreshold / 2) (-config.returnThreshold / 2 < rawReturn)

end MomentumFactor

section MeanReversion

structure MeanReversionConfig where
  common : CommonParams
  period : Nat
  entryThreshold : ℚ
  exitBand : ℚ
  qty : ℚ

def MeanReversionConfig.signal (config : MeanReversionConfig) (held : Phase) (candles : List Candle) :
    Option Signal :=
  let closes := closesOf candles
  if closes.length < config.period then none
  else do
    let z ← (ZScore.after config.period closes).value Arithmetic.rational tolerance
    match held with
    | .flat => do
      let score ← z
      -- overbought is sold first, which tells at a threshold below zero
      if config.entryThreshold < score then some (.enter false)
      else if score < -config.entryThreshold then some (.enter true)
      else none
    | .long | .short => if |z.getD 0| < config.exitBand then some .exit else none

end MeanReversion

section Ichimoku

structure IchimokuConfig where
  common : CommonParams
  tenkanPeriod : Nat
  kijunPeriod : Nat
  senkouBPeriod : Nat
  qty : ℚ

/-- `Decimal::MAX`. -/
def decimalMax : ℚ := 2 ^ 96 - 1

def windowExtremes (bars : List Bar) (window : Nat) : Option (ℚ × ℚ) :=
  if bars.length < window then none
  else some (((bars.drop (bars.length - window)).take window).foldl
    (fun extremes bar => (if extremes.1 < bar.high then bar.high else extremes.1,
      if bar.low < extremes.2 then bar.low else extremes.2)) (-decimalMax, decimalMax))

def lineValue (bars : List Bar) (window : Nat) : Option ℚ :=
  (windowExtremes bars window).map fun (hi, lo) => (hi + lo) / 2

/-- A line as it was some bars ago, or as it is if the window does not reach back as far. -/
def displacedLine (bars : List Bar) (source period : Nat) (line : ℚ) : ℚ :=
  if period ≤ source then (lineValue ((bars.drop (source - period)).take period) period).getD line else line

def IchimokuConfig.signal (config : IchimokuConfig) (held : Phase) (candles : List Candle) : Option Signal :=
  let bars := barsOf candles
  if bars.length < config.senkouBPeriod + config.kijunPeriod then none
  else do
    let tenkan ← lineValue bars config.tenkanPeriod
    let kijun ← lineValue bars config.kijunPeriod
    let senkouSrc := bars.length - config.kijunPeriod
    let senkouB ← lineValue ((bars.drop (senkouSrc - config.senkouBPeriod)).take config.senkouBPeriod)
      config.senkouBPeriod
    let tenkanSrc := displacedLine bars senkouSrc config.tenkanPeriod tenkan
    let kijunSrc := displacedLine bars senkouSrc config.kijunPeriod kijun
    let senkouA := (tenkanSrc + kijunSrc) / 2
    let close ← bars.getLast?.map Bar.close
    let cloudTop := max senkouA senkouB
    let cloudBottom := min senkouA senkouB
    let above : Prop := cloudTop < close
    let below : Prop := close < cloudBottom
    let inCloud : Prop := ¬above ∧ ¬below
    let bullish : Prop := senkouB < senkouA
    signalOf held (kijun < tenkan ∧ above ∧ bullish) (tenkan < kijun ∧ below ∧ ¬bullish)
      (inCloud ∨ tenkan < kijun) (inCloud ∨ kijun < tenkan)

end Ichimoku

/-- What a trader that only buys and sells what it has bought makes of its prices. -/
inductive Advice where
  | buy
  | sell
  | noTrade
  deriving DecidableEq, Repr

/-- What is had after the order, which is also its side; an advice that has been followed is none. -/
def Advice.next (hasPosition : Bool) : Advice → Option Bool
  | .buy => if hasPosition then none else some true
  | .sell => if hasPosition then some false else none
  | .noTrade => none

section BollingerV2

structure BollingerV2Config where
  common : CommonParams
  window : Nat
  mult : ℚ
  squeezeThreshold : ℚ
  qty : ℚ

/-- `none` is the panic of a division by zero. -/
def bollingerSignal (close : ℚ) (bands : Bands ℚ) (squeezeThreshold : ℚ) : Option Advice := do
  let width ← Arithmetic.rational.div (bands.upper - bands.lower) bands.middle
  return if width < squeezeThreshold then .noTrade
    else if close ≤ bands.lower then .buy
    else if bands.upper ≤ close then .sell
    else .noTrade

def BollingerV2Config.next (config : BollingerV2Config) (hasPosition : Bool) (candles : List Candle) :
    Option Bool := do
  let closes := closesOf candles
  let bands ← (BollingerBands.compute Arithmetic.rational tolerance closes config.mult).join
  let close ← closes.getLast?
  let advice ← bollingerSignal close bands config.squeezeThreshold
  advice.next hasPosition

end BollingerV2

section MacdBb

structure MacdBbConfig where
  common : CommonParams
  macdFast : Nat
  macdSlow : Nat
  macdSignal : Nat
  bollWindow : Nat
  bollMult : ℚ
  qty : ℚ

/-- An average of some values. -/
def emaOf (window : Nat) (values : List ℚ) : Option (Ema ℚ) := do
  let empty ← Ema.new Arithmetic.rational window
  values.foldlM (Ema.push Arithmetic.rational) empty

/-- The difference of the two averages; the outer `none` is a panic. -/
def macdLine (closes : List ℚ) (fast slow : Nat) : Option (Option ℚ) := do
  let emaFast ← emaOf fast closes
  let emaSlow ← emaOf slow closes
  return do
    let f ← emaFast.value
    let s ← emaSlow.value
    return f - s

/-- The differences as they were after each of the closes, once both averages are warm. -/
def macdValues (closes : List ℚ) (fast slow : Nat) : Option (List ℚ) := do
  let lines ← (closes.inits.drop 1).mapM fun seen => macdLine seen fast slow
  return lines.filterMap id

/-- The advice of the two lines and the last close. -/
def macdBbAdvice (macd signalVal last : ℚ) (bands : Bands ℚ) : Advice :=
  if signalVal < macd ∧ last ≤ bands.lower then .buy
  else if macd < signalVal ∧ bands.upper ≤ last then .sell
  else .noTrade

def macdBbSignal (closes : List ℚ) (macdFast macdSlow macdSignal bollWindow : Nat) (bollMult : ℚ) :
    Option Advice :=
  if closes.length < max (macdSlow + macdSignal) bollWindow then some .noTrade
  else do
    match ← macdLine closes macdFast macdSlow with
    | none => return .noTrade
    | some macd =>
      let values ← macdValues closes macdFast macdSlow
      let signalEma ← emaOf macdSignal values
      match signalEma.value with
      | none => return .noTrade
      | some signalVal =>
        match ← BollingerBands.compute Arithmetic.rational tolerance closes bollMult, closes.getLast? with
        | some bands, some last => return macdBbAdvice macd signalVal last bands
        | _, _ => return .noTrade

def MacdBbConfig.next (config : MacdBbConfig) (hasPosition : Bool) (candles : List Candle) : Option Bool := do
  let advice ← macdBbSignal (closesOf candles) config.macdFast config.macdSlow config.macdSignal config.bollWindow
    config.bollMult
  advice.next hasPosition

end MacdBb

section DmanV3

structure DmanV3Config where
  common : CommonParams
  fastWindow : Nat
  slowWindow : Nat
  trendWindow : Nat
  qty : ℚ

def dmanSignal (closes : List ℚ) (fast slow trend : Nat) : Option Advice :=
  if closes.length < max (max trend slow) fast then some .noTrade
  else do
    let emaFast ← emaOf fast closes
    let emaSlow ← emaOf slow closes
    let emaTrend ← emaOf trend closes
    match emaFast.value, emaSlow.value, emaTrend.value, closes.getLast? with
    | some f, some s, some t, some last =>
      return if s < f ∧ t < last then .buy else if f < s ∧ ¬t < last then .sell else .noTrade
    | _, _, _, _ => return .noTrade

def DmanV3Config.next (config : DmanV3Config) (hasPosition : Bool) (candles : List Candle) : Option Bool := do
  let advice ← dmanSignal (closesOf candles) config.fastWindow config.slowWindow config.trendWindow
  advice.next hasPosition

end DmanV3

section Irr

structure IrrConfig where
  common : CommonParams
  entryThreshold : ℚ
  qty : ℚ

/-- The prediction is what `read_signal` finds in the signal file. -/
def IrrConfig.next (config : IrrConfig) (held : Bool) (predictedReturn : Option ℚ) : Option Bool := do
  let signal ← predictedReturn
  if !held && config.entryThreshold < signal then some true
  else if held && signal < -config.entryThreshold then some false
  else none

end Irr

section XfundingLite

structure XfundingLiteConfig where
  common : CommonParams
  enterThreshold : ℚ
  exitThreshold : ℚ
  qty : ℚ

/-- Whether a short is held next. -/
def XfundingLiteConfig.next (config : XfundingLiteConfig) (short : Bool) (fundingRate : Except PortError ℚ) :
    Option Bool := do
  let rate ← fundingRate.toOption
  if !short && config.enterThreshold ≤ rate then some true
  else if short && |rate| < config.exitThreshold then some false
  else none

end XfundingLite

inductive Trader where
  | adxTrend (config : AdxTrendConfig)
  | bbKeltnerSqueeze (config : BbKeltnerSqueezeConfig)
  | cvdDivergence (config : CvdDivergenceConfig)
  | dualThrust (config : DualThrustConfig)
  | momentumFactor (config : MomentumFactorConfig)
  | meanReversion (config : MeanReversionConfig)
  | ichimoku (config : IchimokuConfig)
  | bollingerV2 (config : BollingerV2Config)
  | macdBb (config : MacdBbConfig)
  | dmanV3 (config : DmanV3Config)
  | irr (config : IrrConfig)
  | xfundingLite (config : XfundingLiteConfig)

def Trader.common : Trader → CommonParams
  | .adxTrend config => config.common
  | .bbKeltnerSqueeze config => config.common
  | .cvdDivergence config => config.common
  | .dualThrust config => config.common
  | .momentumFactor config => config.common
  | .meanReversion config => config.common
  | .ichimoku config => config.common
  | .bollingerV2 config => config.common
  | .macdBb config => config.common
  | .dmanV3 config => config.common
  | .irr config => config.common
  | .xfundingLite config => config.common

def Trader.qty : Trader → ℚ
  | .adxTrend config => config.qty
  | .bbKeltnerSqueeze config => config.qty
  | .cvdDivergence config => config.qty
  | .dualThrust config => config.qty
  | .momentumFactor config => config.qty
  | .meanReversion config => config.qty
  | .ichimoku config => config.qty
  | .bollingerV2 config => config.qty
  | .macdBb config => config.qty
  | .dmanV3 config => config.qty
  | .irr config => config.qty
  | .xfundingLite config => config.qty

/-- What a trader of two sides decides: the phase it wants and the side of the order. -/
def bySignal (signal : Phase → List Candle → Option Signal) (held : Phase) (reading : Reading) :
    Option (Phase × Bool) := do
  let candles ← reading.candles.toOption
  let given ← signal held candles
  return (given.target, given.isBuy held)

/-- What a trader of one side decides. -/
def byPosition (next : Bool → Option Bool) (held : Phase) : Option (Phase × Bool) :=
  (next (held = .long)).map fun position => (if position then .long else .flat, position)

def Trader.decide (trader : Trader) (held : Phase) (reading : Reading) : Option (Phase × Bool) :=
  match trader with
  | .adxTrend config => bySignal config.signal held reading
  | .bbKeltnerSqueeze config => bySignal config.signal held reading
  | .cvdDivergence config => bySignal config.signal held reading
  | .dualThrust config => bySignal config.signal held reading
  | .momentumFactor config => bySignal config.signal held reading
  | .meanReversion config => bySignal config.signal held reading
  | .ichimoku config => bySignal config.signal held reading
  | .bollingerV2 config => byPosition (fun has => reading.candles.toOption.bind (config.next has)) held
  | .macdBb config => byPosition (fun has => reading.candles.toOption.bind (config.next has)) held
  | .dmanV3 config => byPosition (fun has => reading.candles.toOption.bind (config.next has)) held
  | .irr config => byPosition (fun has => config.next has reading.predictedReturn) held
  | .xfundingLite config =>
    (config.next (held = .short) reading.fundingRate).map fun short => (if short then .short else .flat, !short)

/-- A cycle: the order goes out, and what is held changes if it is accepted. -/
def Trader.tick (trader : Trader) (held : Phase) (reading : Reading) : Phase × List Submission :=
  match trader.decide held reading with
  | none => (held, [])
  | some (target, isBuy) =>
    (if reading.accepted then target else held,
      [⟨marketOrder trader.common.exchangeId trader.common.symbol isBuy trader.qty, reading.accepted⟩])

def Trader.run (trader : Trader) (readings : List Reading) : Phase × List Submission :=
  ticks trader.tick .flat readings

end LongTrader.Strategy.Traders
