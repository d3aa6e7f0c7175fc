import LongTrader.Indicators.Adx
import LongTrader.Indicators.Supertrend
import LongTrader.Indicators.Volatility

/-! The channels that a trader looks for a break of, and the strength of a trend, over exact rationals. -/

namespace LongTrader.Indicators

/-- Keltner channel: EMA ± ATR * multiplier. -/
structure KeltnerChannel where
  mid : Ema ℚ
  atr : Atr ℚ
  multiplier : ℚ

def KeltnerChannel.new (emaWindow atrPeriod : Nat) (multiplier : ℚ) : Option KeltnerChannel := do
  let mid ← Ema.new Arithmetic.rational emaWindow
  return ⟨mid, Atr.new Arithmetic.rational atrPeriod, multiplier⟩

def KeltnerChannel.push (channel : KeltnerChannel) (bar : Bar) : Option KeltnerChannel := do
  let mid ← channel.mid.push Arithmetic.rational bar.close
  let atr ← channel.atr.push Arithmetic.rational bar.high bar.low bar.close
  return { channel with mid, atr }

def KeltnerChannel.upper (channel : KeltnerChannel) : Option ℚ := do
  let mid ← channel.mid.value
  let atr ← channel.atr.rmaValue
  return mid + atr * channel.multiplier

def KeltnerChannel.lower (channel : KeltnerChannel) : Option ℚ := do
  let mid ← channel.mid.value
  let atr ← channel.atr.rmaValue
  return mid - atr * channel.multiplier

/-- Donchian channel: rolling highest-high / lowest-low over a window. -/
structure DonchianChannel where
  window : Nat
  buf : List (ℚ × ℚ)

def DonchianChannel.new (window : Nat) : DonchianChannel := ⟨window, []⟩

def DonchianChannel.push (channel : DonchianChannel) (high low : ℚ) : DonchianChannel :=
  { channel with buf := roll channel.window channel.buf (high, low) }

def DonchianChannel.upper (channel : DonchianChannel) : Option ℚ := (channel.buf.map Prod.fst).max?

def DonchianChannel.lower (channel : DonchianChannel) : Option ℚ := (channel.buf.map Prod.snd).min?

/-- `Adx::value`: the difference of the directional indicators against their sum. -/
def Adx.value (adx : Adx) : Option ℚ := do
  let tr ← adx.smoothTr
  if tr = 0 then return 0
  let plusDm ← adx.smoothPlusDm
  let minusDm ← adx.smoothMinusDm
  let plusDi := plusDm / tr * 100
  let minusDi := minusDm / tr * 100
  let denom := plusDi + minusDi
  if denom = 0 then return 0
  return |plusDi - minusDi| / denom * 100

end LongTrader.Indicators
