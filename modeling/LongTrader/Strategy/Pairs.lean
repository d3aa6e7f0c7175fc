import LongTrader.Indicators.Rounded
import LongTrader.Indicators.Volatility
import LongTrader.Strategy.Supertrend
import LongTrader.Runs
import Mathlib.Data.Sign.Defs

/-! The pair trades: the statistical arbitrage of two symbols of one venue, and the arbitrage of a spot
market against its perpetual. Both submit one order for each of the two legs, and keep their position
whether or not the orders are accepted. Prices and amounts are the numbers that the decimals denote, and
their operators are those of any arithmetic, which may round and may panic. -/

namespace LongTrader.Strategy

open Indicators (Arithmetic SpreadTracker)
open Supertrend (position signed position_append)

section Legs

/-- What a tick reads: the tickers of the two legs, and what the venues say to their orders, if they
refuse them. The ticks only log an error, so that an order is accepted whether or not its answer is lost. -/
structure PairReading where
  firstTicker : TickerRead ℚ
  secondTicker : TickerRead ℚ
  firstAnswer : Option PortError
  secondAnswer : Option PortError

/-- `fetch_price` of both strategies; `none` is any of its errors. -/
def fetchPrice (ticker : TickerRead ℚ) : Option ℚ :=
  match ticker with
  | .ok (some (.ok last)) => if 0 < last then some last else none
  | _ => none

/-- The limit order of a leg, and whether the venue accepts it. -/
def leg (exchangeId : ExchangeId) (symbol : String) (isBuy : Bool) (price qty : ℚ)
    (answer : Option PortError) : Submission :=
  ⟨limitOrder exchangeId symbol isBuy price qty, answer.isNone⟩

theorem position_leg (exchangeId : ExchangeId) (symbol : String) (isBuy : Bool) (price qty : ℚ)
    (answer : Option PortError) :
    position [leg exchangeId symbol isBuy price qty answer] =
      if answer = none then if isBuy then qty else -qty else 0 := by
  cases answer with
  | some error => simp [position, accepted, leg]
  | none => cases isBuy <;> simp [position, accepted, leg, signed, limitOrder, orderRequest]

/-- An order of one unit takes a net quantity from one multiple of it to the next just if it is
accepted, or the unit is zero. -/
theorem net_iff {held target amount : ℚ} {isBuy : Bool} {answer : Option PortError}
    (moves : target - held = if isBuy then 1 else -1) :
    held * amount + (if answer = none then if isBuy then amount else -amount else 0) = target * amount ↔
      amount = 0 ∨ answer = none := by
  have target_eq : target = held + if isBuy then 1 else -1 := by linarith
  cases answer with
  | none => cases isBuy <;> simp [target_eq, add_mul]
  | some error =>
    cases isBuy with
    | false => simp [target_eq, add_mul]
    | true => simp [target_eq, add_mul]

/-- An order that the position takes no note of leaves the net quantity as it is just if it is refused, or
for nothing. -/
theorem unnoted_iff {held amount : ℚ} {isBuy : Bool} {answer : Option PortError} :
    held + (if answer = none then if isBuy then amount else -amount else 0) = held ↔
      amount = 0 ∨ answer ≠ none := by
  cases answer with
  | none => cases isBuy <;> simp
  | some error => simp

end Legs

section Classifying

variable {Signal : Type} (short long close noTrade : Signal) (measure : Option ℚ)
  (entryThreshold exitThreshold : ℚ) (hasPosition : Bool)

/-- What both strategies make of how far apart the legs are, with the signals of either. -/
def classify : Signal :=
  match measure with
  | none => noTrade
  | some measure =>
    if hasPosition then if |measure| < exitThreshold then close else noTrade
    else if entryThreshold < measure then short
    else if measure < -entryThreshold then long
    else noTrade

variable {short long close noTrade}

/-- A position is closed only when there is one, and opened only when there is none. -/
theorem classify_spec (shorts : short ≠ close) (longs : long ≠ close) (idles : noTrade ≠ close) :
    classify short long close noTrade measure entryThreshold exitThreshold hasPosition = noTrade ∨
      if hasPosition then
        classify short long close noTrade measure entryThreshold exitThreshold hasPosition = close
      else classify short long close noTrade measure entryThreshold exitThreshold hasPosition ≠ close := by
  cases measure with
  | none => exact .inl rfl
  | some measure =>
    cases hasPosition with
    | true =>
      simp only [classify, if_true]
      split
      · exact .inr rfl
      · exact .inl rfl
    | false =>
      refine .inr ?_
      simp only [classify, Bool.false_eq_true, if_false]
      split
      · exact shorts
      split
      · exact longs
      · exact idles

end Classifying

namespace StatArb

structure StatArbConfig where
  exchangeId : ExchangeId
  symbolA : String
  symbolB : String
  hedgeRatio : ℚ
  window : Nat
  entryThreshold : ℚ
  exitThreshold : ℚ
  qty : ℚ

inductive StatArbSignal where
  | longSpread
  | shortSpread
  | close
  | noTrade
  deriving DecidableEq, Repr

def classifyStatArb (z : Option ℚ) (entryThreshold exitThreshold : ℚ) (hasPosition : Bool) : StatArbSignal :=
  classify .shortSpread .longSpread .close .noTrade z entryThreshold exitThreshold hasPosition

/-- The strategy, whose position is short, flat or long of the spread, and what it has submitted for
each leg. A panic ends its task. -/
structure World where
  tracker : SpreadTracker ℚ
  hasPosition : SignType
  first : List Submission
  second : List Submission
  panicked : Bool

/-- A new strategy. -/
def World.new (config : StatArbConfig) : World := ⟨.new config.window, 0, [], [], false⟩

section

variable (arith : Arithmetic ℚ) (tolerance : ℚ)

/-- The orders of both legs, with the position that the strategy takes for granted then. The quantity of the
second is worked out behind the first order. -/
def World.trade (config : StatArbConfig) (world : World) (reading : PairReading) (priceA priceB : ℚ)
    (buysA buysB : Bool) (hasPosition : SignType) : World :=
  let legA := leg config.exchangeId config.symbolA buysA priceA config.qty reading.firstAnswer
  let first := world.first ++ [legA]
  match arith.mul config.qty config.hedgeRatio with
  | none => { world with first, panicked := true }
  | some qtyB =>
    let legB := leg config.exchangeId config.symbolB buysB priceB qtyB reading.secondAnswer
    { world with hasPosition, first, second := world.second ++ [legB] }

/-- The spread is tracked, and the signal of a tick is classified. The outer `none` is a panic, the inner
one a price that is missing. -/
def World.signal (config : StatArbConfig) (world : World) (reading : PairReading) :
    Option (Option (World × ℚ × ℚ × StatArbSignal)) :=
  match fetchPrice reading.firstTicker, fetchPrice reading.secondTicker with
  | some priceA, some priceB => do
    let hedged ← arith.mul config.hedgeRatio priceB
    let spread ← arith.sub priceA hedged
    let tracker := world.tracker.push spread
    let z ← tracker.zScore arith tolerance spread
    return some ({ world with tracker }, priceA, priceB,
      classifyStatArb z config.entryThreshold config.exitThreshold (world.hasPosition ≠ 0))
  | _, _ => return none

/-- `StatArb::tick`. -/
def World.tick (config : StatArbConfig) (world : World) (reading : PairReading) : World :=
  if world.panicked then world
  else match world.signal arith tolerance config reading with
  | none => { world with panicked := true }
  | some none => world
  | some (some (world, priceA, priceB, signal)) => match signal with
    | .noTrade => world
    | .longSpread => world.trade arith config reading priceA priceB true false 1
    | .shortSpread => world.trade arith config reading priceA priceB false true (-1)
    | .close =>
      world.trade arith config reading priceA priceB (world.hasPosition < 0) (0 < world.hasPosition) 0

/-- The two legs hold what the position says; nothing is ever held of the second when its quantity
overflows. -/
def World.Paired (config : StatArbConfig) (world : World) : Prop :=
  position world.first = (world.hasPosition : ℚ) * config.qty ∧
    position world.second =
      -(world.hasPosition : ℚ) * (arith.mul config.qty config.hedgeRatio).getD 0

/-- No order for any quantity is refused. When the quantity of the second leg overflows, none is accepted. -/
def StatArbConfig.Accepts (config : StatArbConfig) (reading : PairReading) : Prop :=
  match arith.mul config.qty config.hedgeRatio with
  | none => config.qty = 0 ∨ reading.firstAnswer ≠ none
  | some qtyB =>
    (config.qty = 0 ∨ reading.firstAnswer = none) ∧ (qtyB = 0 ∨ reading.secondAnswer = none)

/-- The orders of a tick that trades are accepted. -/
def World.Accepted (config : StatArbConfig) (world : World) (reading : PairReading) : Prop :=
  world.panicked = false → ∀ traded, world.signal arith tolerance config reading = some (some traded) →
    traded.2.2.2 ≠ .noTrade → config.Accepts arith reading

end

section

variable {arith : Arithmetic ℚ} {tolerance : ℚ} {config : StatArbConfig} {world : World}
  {reading : PairReading}

/-- A tick that trades moves the position by one, and both legs with it when they are accepted. -/
theorem World.Paired.trade_iff (paired : world.Paired arith config) {priceA priceB : ℚ} {buysA buysB : Bool}
    {hasPosition : SignType}
    (first : (hasPosition : ℚ) - world.hasPosition = if buysA then 1 else -1)
    (second : (hasPosition : ℚ) - world.hasPosition = if buysB then -1 else 1) :
    (world.trade arith config reading priceA priceB buysA buysB hasPosition).Paired arith config ↔
      config.Accepts arith reading := by
  obtain ⟨netA, netB⟩ := paired
  have opposite : -(hasPosition : ℚ) - -(world.hasPosition : ℚ) = if buysB then 1 else -1 := by
    cases buysB <;> simp only [Bool.false_eq_true, if_true, if_false] at second ⊢ <;> linarith
  unfold trade StatArbConfig.Accepts
  cases product : arith.mul config.qty config.hedgeRatio with
  | none =>
    rw [product] at netB
    simp only [Paired, product, position_append, netA, netB, position_leg, unnoted_iff, and_true]
  | some qtyB =>
    rw [product, Option.getD_some] at netB
    simp only [Paired, product, Option.getD_some, position_append, netA, netB, position_leg, net_iff first,
      net_iff opposite]

theorem World.signal_spec {traded : World × ℚ × ℚ × StatArbSignal}
    (signals : world.signal arith tolerance config reading = some (some traded)) :
    (∃ tracker, traded.1 = { world with tracker }) ∧
      (traded.2.2.2 = .noTrade ∨
        if world.hasPosition ≠ 0 then traded.2.2.2 = .close else traded.2.2.2 ≠ .close) := by
  unfold signal at signals
  split at signals
  · simp only [Option.bind_eq_bind, Option.bind_eq_some_iff] at signals
    obtain ⟨hedged, -, spread, -, z, -, ⟨⟩⟩ := signals
    refine ⟨⟨_, rfl⟩, ?_⟩
    simpa [classifyStatArb] using @classify_spec StatArbSignal .shortSpread .longSpread .close .noTrade _
      config.entryThreshold config.exitThreshold (world.hasPosition ≠ 0) nofun nofun nofun
  · cases signals

/-- The orders that close a position. -/
theorem closing_moves {held : SignType} (holds : held ≠ 0) :
    ((0 : SignType) : ℚ) - held = (if decide (held < 0) then 1 else -1) ∧
      ((0 : SignType) : ℚ) - held = if decide (0 < held) then -1 else 1 := by
  cases held with
  | zero => exact absurd rfl holds
  | neg => norm_num +decide
  | pos => norm_num +decide

theorem World.Paired.tick_iff (paired : world.Paired arith config) :
    (world.tick arith tolerance config reading).Paired arith config ↔
      world.Accepted arith tolerance config reading := by
  unfold tick Accepted
  cases running : world.panicked with
  | true => simp [paired]
  | false =>
    simp only [Bool.false_eq_true, if_false, forall_const]
    cases signals : world.signal arith tolerance config reading with
    | none => exact iff_of_true paired nofun
    | some read =>
      cases read with
      | none => exact iff_of_true paired nofun
      | some traded =>
        obtain ⟨⟨tracker, same⟩, spec⟩ := signal_spec signals
        obtain ⟨measured, priceA, priceB, signal⟩ := traded
        obtain rfl : measured = { world with tracker } := same
        have kept : World.Paired arith config { world with tracker } := paired
        simp only [Option.some.injEq, forall_eq']
        cases signal with
        | noTrade => simp [kept]
        | longSpread =>
          have flat : world.hasPosition = 0 := by simpa using spec
          simpa using kept.trade_iff (by simp [flat]) (by simp [flat])
        | shortSpread =>
          have flat : world.hasPosition = 0 := by simpa using spec
          simpa using kept.trade_iff (by simp [flat]) (by simp [flat])
        | close =>
          have held : world.hasPosition ≠ 0 := by simpa using spec
          obtain ⟨first, second⟩ := closing_moves held
          simpa using kept.trade_iff first second

/-- After every tick the legs hold what the position says, just if no order for any quantity is ever
refused, and the quantity of the second leg does not overflow behind the first. -/
theorem paired_iff (arith : Arithmetic ℚ) (tolerance : ℚ) (config : StatArbConfig)
    (readings : List PairReading) :
    Runs.Along (World.tick arith tolerance config)
        (fun world reading => (world.tick arith tolerance config reading).Paired arith config)
        (.new config) readings ↔
      Runs.Along (World.tick arith tolerance config) (World.Accepted arith tolerance config) (.new config)
        readings := by
  have start : World.Paired arith config (.new config) := by
    simp [World.Paired, World.new, position, accepted]
  refine @Runs.along_congr _ _ _ (World.Paired arith config) _ _ ?_ ?_ _ start readings
  · exact fun world reading paired => paired.tick_iff
  · exact fun world reading paired all => paired.tick_iff.mpr all

end

end StatArb

namespace SpotPerpArb

structure SpotPerpArbConfig where
  primary : ExchangeId
  hedge : ExchangeId
  spotSymbol : String
  perpSymbol : String
  entryThreshold : ℚ
  exitThreshold : ℚ
  qty : ℚ

inductive BasisArbSignal where
  | shortPerpLongSpot
  | longPerpShortSpot
  | close
  | noTrade
  deriving DecidableEq, Repr

/-- The outer `none` is a panic, the inner one the answer. -/
def computeBasis (arith : Arithmetic ℚ) (spotPrice perpPrice : ℚ) : Option (Option ℚ) :=
  if spotPrice ≤ 0 ∨ perpPrice ≤ 0 then some none
  else do
    let premium ← arith.sub perpPrice spotPrice
    let basis ← arith.div premium spotPrice
    return some basis

def classifyBasisArb (basis : Option ℚ) (entryThreshold exitThreshold : ℚ) (hasPosition : Bool) :
    BasisArbSignal :=
  classify .shortPerpLongSpot .longPerpShortSpot .close .noTrade basis entryThreshold exitThreshold hasPosition

/-- The strategy, and what it has submitted for the spot market and for the perpetual. A panic ends its
task. -/
structure World where
  hasPosition : Bool
  first : List Submission
  second : List Submission
  panicked : Bool

/-- A new strategy. -/
def World.new : World := ⟨false, [], [], false⟩

/-- The orders of both legs, with the position that the strategy takes for granted then. -/
def World.trade (config : SpotPerpArbConfig) (world : World) (reading : PairReading) (spot perp : ℚ)
    (buysSpot : Bool) : World :=
  let spotLeg := leg config.primary config.spotSymbol buysSpot spot config.qty reading.firstAnswer
  let perpLeg := leg config.hedge config.perpSymbol (!buysSpot) perp config.qty reading.secondAnswer
  { world with hasPosition := true, first := world.first ++ [spotLeg], second := world.second ++ [perpLeg] }

section

variable (arith : Arithmetic ℚ)

/-- The prices of a tick and its signal. The outer `none` is a panic, the inner one a price that is
missing. -/
def World.signal (config : SpotPerpArbConfig) (world : World) (reading : PairReading) :
    Option (Option (ℚ × ℚ × BasisArbSignal)) :=
  match fetchPrice reading.firstTicker, fetchPrice reading.secondTicker with
  | some spot, some perp => do
    let basis ← computeBasis arith spot perp
    return some (spot, perp,
      classifyBasisArb basis config.entryThreshold config.exitThreshold world.hasPosition)
  | _, _ => return none

/-- `SpotPerpArb::tick`. -/
def World.tick (config : SpotPerpArbConfig) (world : World) (reading : PairReading) : World :=
  if world.panicked then world
  else match world.signal arith config reading with
  | none => { world with panicked := true }
  | some none => world
  | some (some (spot, perp, signal)) => match signal with
    | .noTrade => world
    | .shortPerpLongSpot => world.trade config reading spot perp true
    | .longPerpShortSpot => world.trade config reading spot perp false
    -- The position is taken for closed, and nothing is traded.
    | .close => { world with hasPosition := false }

/-- The two legs hold one quantity against each other when there is a position, and nothing when
there is none. -/
def World.Paired (config : SpotPerpArbConfig) (world : World) : Prop :=
  if world.hasPosition then
    ∃ side : SignType, side ≠ 0 ∧ position world.first = (side : ℚ) * config.qty ∧
      position world.second = -(side : ℚ) * config.qty
  else position world.first = 0 ∧ position world.second = 0

/-- No order for any quantity is refused, and no position of any quantity is taken for closed. -/
def World.Accepted (config : SpotPerpArbConfig) (world : World) (reading : PairReading) : Prop :=
  world.panicked = false → ∀ traded, world.signal arith config reading = some (some traded) →
    match traded.2.2 with
    | .noTrade => True
    | .shortPerpLongSpot | .longPerpShortSpot =>
      config.qty = 0 ∨ reading.firstAnswer = none ∧ reading.secondAnswer = none
    | .close => config.qty = 0

end

section

variable {arith : Arithmetic ℚ} {config : SpotPerpArbConfig} {world : World} {reading : PairReading}

theorem cast_ne_zero {side : SignType} (nonzero : side ≠ 0) : (side : ℚ) ≠ 0 := by
  cases side with
  | zero => exact absurd rfl nonzero
  | neg => simp
  | pos => simp

/-- A tick that opens a position leaves one quantity against the other just if both legs are accepted,
or the quantity is zero. -/
theorem World.trade_paired_iff (first : position world.first = 0) (second : position world.second = 0)
    {spot perp : ℚ} {buysSpot : Bool} :
    (world.trade config reading spot perp buysSpot).Paired config ↔
      config.qty = 0 ∨ reading.firstAnswer = none ∧ reading.secondAnswer = none := by
  simp only [Paired, trade, position_append, first, second, position_leg, zero_add, if_true]
  constructor
  · rintro ⟨side, nonzero, netSpot, netPerp⟩
    refine or_iff_not_imp_left.mpr fun some_qty => ⟨?_, ?_⟩
    · by_contra refused
      rw [if_neg refused] at netSpot
      exact mul_ne_zero (cast_ne_zero nonzero) some_qty netSpot.symm
    · by_contra refused
      rw [if_neg refused] at netPerp
      exact mul_ne_zero (neg_ne_zero.mpr (cast_ne_zero nonzero)) some_qty netPerp.symm
  · rintro (no_qty | ⟨spotAccepted, perpAccepted⟩)
    · exact ⟨1, by decide, by simp [no_qty], by simp [no_qty]⟩
    · cases buysSpot with
      | true => exact ⟨1, by decide, by simp [spotAccepted], by simp [perpAccepted]⟩
      | false => exact ⟨-1, by decide, by simp [spotAccepted], by simp [perpAccepted]⟩

theorem World.signal_spec {traded : ℚ × ℚ × BasisArbSignal}
    (signals : world.signal arith config reading = some (some traded)) :
    traded.2.2 = .noTrade ∨ if world.hasPosition then traded.2.2 = .close else traded.2.2 ≠ .close := by
  unfold signal at signals
  split at signals
  · simp only [Option.bind_eq_bind, Option.bind_eq_some_iff] at signals
    obtain ⟨basis, -, ⟨⟩⟩ := signals
    exact classify_spec _ _ _ _ nofun nofun nofun
  · cases signals

/-- A position of a quantity is not closed by trading nothing. -/
theorem World.Paired.closed_iff (held : world.hasPosition = true) (paired : world.Paired config) :
    World.Paired config { world with hasPosition := false } ↔ config.qty = 0 := by
  rw [Paired, if_pos held] at paired
  obtain ⟨side, nonzero, netSpot, netPerp⟩ := paired
  simp only [Paired, Bool.false_eq_true, if_false, netSpot, netPerp, mul_eq_zero,
    cast_ne_zero nonzero, neg_eq_zero, false_or, and_self]

theorem World.Paired.tick_iff (paired : world.Paired config) :
    (world.tick arith config reading).Paired config ↔ world.Accepted arith config reading := by
  unfold tick Accepted
  cases running : world.panicked with
  | true => simp [paired]
  | false =>
    simp only [Bool.false_eq_true, if_false, forall_const]
    cases signals : world.signal arith config reading with
    | none => exact iff_of_true paired nofun
    | some read =>
      cases read with
      | none => exact iff_of_true paired nofun
      | some traded =>
        have spec := signal_spec signals
        obtain ⟨spot, perp, signal⟩ := traded
        simp only [Option.some.injEq, forall_eq']
        cases held : world.hasPosition with
        | false =>
          have flat := paired
          rw [Paired, held] at flat
          cases signal with
          | noTrade => exact iff_of_true paired trivial
          | shortPerpLongSpot => exact trade_paired_iff flat.1 flat.2
          | longPerpShortSpot => exact trade_paired_iff flat.1 flat.2
          | close => simp [held] at spec
        | true =>
          cases signal with
          | noTrade => exact iff_of_true paired trivial
          | shortPerpLongSpot => simp [held] at spec
          | longPerpShortSpot => simp [held] at spec
          | close => exact paired.closed_iff held

/-- After every tick the legs hold one quantity against the other when there is a position, just if no
order for any quantity is ever refused and no position of any quantity is ever taken for closed. -/
theorem paired_iff (arith : Arithmetic ℚ) (config : SpotPerpArbConfig) (readings : List PairReading) :
    Runs.Along (World.tick arith config)
        (fun world reading => (world.tick arith config reading).Paired config) .new readings ↔
      Runs.Along (World.tick arith config) (World.Accepted arith config) .new readings := by
  have start : World.Paired config .new := by simp [World.Paired, World.new, position, accepted]
  refine @Runs.along_congr _ _ _ (World.Paired config) _ _ ?_ ?_ _ start readings
  · exact fun world reading paired => paired.tick_iff
  · exact fun world reading paired all => paired.tick_iff.mpr all

end

end SpotPerpArb

/-- In both strategies the legs match the position after every tick of a run, just if no order for any
quantity is refused in it, no quantity of a second leg overflows behind a first one, and the arbitrage of the
perpetual takes no position for closed. -/
theorem pairs_stay_paired_iff (arith : Arithmetic ℚ) (tolerance : ℚ) (statArb : StatArb.StatArbConfig)
    (spotPerp : SpotPerpArb.SpotPerpArbConfig) (readings : List PairReading) :
    (Runs.Along (StatArb.World.tick arith tolerance statArb)
        (fun world reading => (world.tick arith tolerance statArb reading).Paired arith statArb)
        (.new statArb) readings ↔
      Runs.Along (StatArb.World.tick arith tolerance statArb)
        (StatArb.World.Accepted arith tolerance statArb) (.new statArb) readings) ∧
    (Runs.Along (SpotPerpArb.World.tick arith spotPerp)
        (fun world reading => (world.tick arith spotPerp reading).Paired spotPerp) .new readings ↔
      Runs.Along (SpotPerpArb.World.tick arith spotPerp) (SpotPerpArb.World.Accepted arith spotPerp) .new
        readings) :=
  ⟨StatArb.paired_iff arith tolerance statArb readings, SpotPerpArb.paired_iff arith spotPerp readings⟩

/-- A tick that finds the two legs at these prices. -/
def quotes (first second : ℚ) (secondAnswer : Option PortError) : PairReading :=
  ⟨.ok (some (.ok first)), .ok (some (.ok second)), none, secondAnswer⟩

/-- A statistical arbitrage that trades early. -/
def eager : StatArb.StatArbConfig := ⟨⟨"primary", ""⟩, "A/USDT", "B/USDT", 1, 5, 1 / 2, 1 / 4, 1⟩

/-- The arbitrage of a perpetual with its default thresholds. -/
def basis : SpotPerpArb.SpotPerpArbConfig :=
  ⟨⟨"spot", ""⟩, ⟨"perp", ""⟩, "BTC/USDT", "BTC/USDT:USDT", 1 / 100, 2 / 1000, 1⟩

/-- The spread is sold, and the order for its second leg is refused. -/
def halfSold : StatArb.World :=
  [quotes 100 100 none, quotes 102 100 (some (.transport "refused"))].foldl
    (StatArb.World.tick .rounded (1 / 10 ^ 8) eager) (.new eager)

/-- The perpetual is sold against the spot market, and then the basis is gone. -/
def converged : SpotPerpArb.World :=
  [quotes 100 102 none, quotes 100 100 none].foldl (SpotPerpArb.World.tick .rounded basis) .new

/-- A refused second leg leaves the first one open under a short position, and a close that trades
nothing leaves both open under none. -/
theorem legs_left_open :
    (halfSold.hasPosition = -1 ∧ position halfSold.first = -1 ∧ position halfSold.second = 0) ∧
      converged.hasPosition = false ∧ position converged.first = 1 ∧ position converged.second = -1 := by
  decide +kernel

end LongTrader.Strategy
