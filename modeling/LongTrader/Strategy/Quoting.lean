import LongTrader.Indicators.Volatility
import LongTrader.Requote
import LongTrader.Strategy.EmaCross
import LongTrader.Strategy.Executors

/-! The quoting strategies: in each cycle they read the market, cancel what rests, and place a plan. Prices and
amounts are rationals, so that nothing rounds. -/

namespace LongTrader.Strategy.Quoting

open Requote Indicators
open EmaCross (closesOf)

/-- `CommonParams`, as far as the orders carry it. -/
structure CommonParams where
  exchangeId : ExchangeId
  symbol : String

/-- `market.v1.PriceLevel`. -/
structure PriceLevel where
  price : Option (Except DecimalConvertError ℚ)
  amount : Option (Except DecimalConvertError ℚ)

/-- `market.v1.OrderBook`. -/
structure OrderBook where
  bids : List PriceLevel
  asks : List PriceLevel

/-- What a maker reads in a cycle, and what the venue answers to its calls. -/
structure MarketPoll where
  ticker : TickerRead ℚ
  orderBook : Except PortError OrderBook
  fundingRate : Except PortError ℚ
  closes : Except PortError (List (Option (Except DecimalConvertError ℚ)))
  answers : Answers

/-- A limit order of a plan. -/
structure Leg where
  isBuy : Bool
  price : ℚ
  qty : ℚ

def Leg.order (common : CommonParams) (leg : Leg) : Request ℚ :=
  limitOrder common.exchangeId common.symbol leg.isBuy leg.price leg.qty

/-- A cycle with a plan replaces what rests by it; one without leaves the venue alone. -/
def requote (common : CommonParams) (stops : Bool) (answers : Answers) :
    Option (List Leg) → List (Call (Request ℚ))
  | none => []
  | some legs => replace stops answers (legs.map (Leg.order common))

/-- A bid and an ask. -/
def twoSided (bid bidQty ask askQty : ℚ) : List Leg := [⟨true, bid, bidQty⟩, ⟨false, ask, askQty⟩]

section FixedMaker

structure FixedMakerConfig where
  common : CommonParams
  bidSpread : ℚ
  askSpread : ℚ
  qty : ℚ

def planQuotes (mid bidSpread askSpread : ℚ) : Option (ℚ × ℚ) :=
  if mid ≤ 0 ∨ bidSpread < 0 ∨ askSpread < 0 then none
  else some (mid * (1 - bidSpread), mid * (1 + askSpread))

def FixedMakerConfig.plan (config : FixedMakerConfig) (poll : MarketPoll) : Option (List Leg) := do
  let mid ← currentMid poll.ticker
  let (bid, ask) ← planQuotes mid config.bidSpread config.askSpread
  return twoSided bid config.qty ask config.qty

/-- `FixedMaker::tick`. -/
def FixedMakerConfig.tick (config : FixedMakerConfig) (poll : MarketPoll) : List (Call (Request ℚ)) :=
  requote config.common false poll.answers (config.plan poll)

end FixedMaker

section GridStrike

structure GridStrikeConfig where
  common : CommonParams
  lowerPrice : ℚ
  upperPrice : ℚ
  levels : Nat
  qty : ℚ

def planGridStrike (lower upper : ℚ) (levels : Nat) : Option (List ℚ) :=
  if lower ≤ 0 ∨ upper ≤ lower ∨ levels = 0 then none
  else
    let step := (upper - lower) / ((levels + 1 : Nat) : ℚ)
    some ((List.range' 1 levels).map fun (i : Nat) => lower + step * (i : ℚ))

def GridStrikeConfig.plan (config : GridStrikeConfig) (poll : MarketPoll) : Option (List Leg) := do
  let mid ← currentMid poll.ticker
  let prices ← planGridStrike config.lowerPrice config.upperPrice config.levels
  return prices.map fun price => ⟨decide (price < mid), price, config.qty⟩

/-- `GridStrike::tick`. -/
def GridStrikeConfig.tick (config : GridStrikeConfig) (poll : MarketPoll) : List (Call (Request ℚ)) :=
  requote config.common false poll.answers (config.plan poll)

end GridStrike

section Pmm

structure PmmConfig where
  common : CommonParams
  levels : Nat
  orderStepSize : ℚ
  orderSizeSpread : ℚ
  orderAmount : ℚ
  inventorySkew : ℚ
  priceBand : ℚ

structure PmmLevel where
  level : Nat
  bidPrice : ℚ
  askPrice : ℚ
  bidQty : ℚ
  askQty : ℚ

def planPmmLevels (mid : ℚ) (levels : Nat) (stepSize sizeSpread baseQty inventorySkew inventory : ℚ) :
    Option (List PmmLevel) :=
  if mid ≤ 0 ∨ levels = 0 ∨ stepSize ≤ 0 then none
  else some ((List.range levels).map fun (i : Nat) =>
    let level : Nat := i + 1
    let spread := stepSize * (level : ℚ) * (1 + sizeSpread * (i : ℚ))
    let skewFactor := inventorySkew * inventory
    { level
      bidPrice := mid * (1 - spread)
      askPrice := mid * (1 + spread)
      bidQty := baseQty * max (1 - skewFactor) 0
      askQty := baseQty * max (1 + skewFactor) 0 })

def withinPriceBand (current reference band : ℚ) : Bool :=
  if reference ≤ 0 ∨ band < 0 then false
  else decide (reference * (1 - band) ≤ current) && decide (current ≤ reference * (1 + band))

/-- The fields of `Pmm` that are behind a lock. -/
structure PmmState where
  inventory : ℚ
  lastMid : Option ℚ

def PmmLevel.legs (level : PmmLevel) : List Leg :=
  twoSided level.bidPrice level.bidQty level.askPrice level.askQty

def PmmConfig.levelsAt (config : PmmConfig) (mid inventory : ℚ) : Option (List PmmLevel) :=
  planPmmLevels mid config.levels config.orderStepSize config.orderSizeSpread config.orderAmount
    config.inventorySkew inventory

/-- The ladder around what the ticker shows. -/
def PmmConfig.plan (config : PmmConfig) (state : PmmState) (poll : MarketPoll) : Option (List Leg) := do
  let mid ← currentMid poll.ticker
  let levels ← config.levelsAt mid state.inventory
  return levels.flatMap PmmLevel.legs

/-- `Pmm::tick`: the ladder is left as it is while the mid is in the band of the mid before. -/
def PmmConfig.tick (config : PmmConfig) (state : PmmState) (poll : MarketPoll) :
    PmmState × List (Call (Request ℚ)) :=
  match currentMid poll.ticker with
  | none => (state, [])
  | some mid =>
    let seen := { state with lastMid := some mid }
    if state.lastMid.any fun prev => withinPriceBand mid prev config.priceBand then (seen, [])
    else match config.plan state poll with
      | none => (state, [])
      | some legs => (if poll.answers.cancels then seen else state,
          requote config.common false poll.answers (some legs))

end Pmm

section Xemm

/-- `XemmConfig`, with the primary venue of its `CrossVenueParams`. -/
structure XemmConfig where
  common : CommonParams
  minProfitability : ℚ
  qty : ℚ
  levels : Nat
  stepSize : ℚ

structure XemmQuotePlan where
  bids : List ℚ
  asks : List ℚ
  skip : Bool

def midPrice (bid ask : ℚ) : ℚ := (bid + ask) / 2

def planXemmQuotes (takerBid takerAsk minProfitability : ℚ) (levels : Nat) (stepSize : ℚ) :
    Option XemmQuotePlan :=
  if takerBid ≤ 0 ∨ takerAsk ≤ 0 ∨ takerAsk ≤ takerBid ∨ minProfitability < 0 then none
  else if (takerAsk - takerBid) / takerBid < minProfitability * 2 then some ⟨[], [], true⟩
  else
    let center := midPrice takerBid takerAsk
    let offset (i : Nat) : ℚ := stepSize * (i : ℚ)
    some {
      bids := (List.range' 1 levels).map fun i => center * max (1 - minProfitability - offset i) 0
      asks := (List.range' 1 levels).map fun i => center * (1 + minProfitability + offset i)
      skip := false }

/-- The price of the best level of a side. -/
def bestPrice (side : List PriceLevel) : Option ℚ :=
  side.head?.bind fun level => level.price.bind Except.toOption

/-- `Xemm::fetch_taker_best`; `none` is any of its errors. -/
def takerBest (orderBook : Except PortError OrderBook) : Option (ℚ × ℚ) := do
  let book ← orderBook.toOption
  let bid ← bestPrice book.bids
  let ask ← bestPrice book.asks
  return (bid, ask)

def XemmConfig.plan (config : XemmConfig) (poll : MarketPoll) : Option (List Leg) := do
  let (takerBid, takerAsk) ← takerBest poll.orderBook
  let plan ← planXemmQuotes takerBid takerAsk config.minProfitability config.levels config.stepSize
  if plan.skip then none
  else return plan.bids.map (⟨true, ·, config.qty⟩) ++ plan.asks.map (⟨false, ·, config.qty⟩)

/-- `Xemm::tick`. -/
def XemmConfig.tick (config : XemmConfig) (poll : MarketPoll) : List (Call (Request ℚ)) :=
  requote config.common false poll.answers (config.plan poll)

end Xemm

section QueueMm

structure QueueMmConfig where
  common : CommonParams
  halfSpread : ℚ
  qty : ℚ
  impulseWindow : Nat
  wPressure : ℚ
  wImpulse : ℚ
  alpha : ℚ
  spreadWiden : ℚ

def bookPressure (bidTotal askTotal : ℚ) : Option ℚ :=
  if bidTotal ≤ 0 ∨ askTotal ≤ 0 then none else some ((bidTotal - askTotal) / (bidTotal + askTotal))

/-- The volumes of the last trades. No cycle records any. -/
structure TradeImpulse where
  window : Nat
  signedVolumes : List ℚ

def TradeImpulse.new (window : Nat) : TradeImpulse := ⟨window, []⟩

def TradeImpulse.raw (impulse : TradeImpulse) : ℚ := impulse.signedVolumes.sum

def TradeImpulse.normalised (impulse : TradeImpulse) : Option ℚ :=
  match (impulse.signedVolumes.map fun volume => |volume|).max? with
  | none => none
  | some maxAbs => if maxAbs = 0 then none else some (impulse.raw / maxAbs)

def compositeSignal (pressure impulseNorm : Option ℚ) (wPressure wImpulse : ℚ) : ℚ :=
  wPressure * pressure.getD 0 + wImpulse * impulseNorm.getD 0

structure QueueQuotes where
  fair : ℚ
  bid : ℚ
  ask : ℚ
  bidHalfSpread : ℚ
  askHalfSpread : ℚ

def planQueueQuotes (mid signal baseHalfSpread spreadWiden : ℚ) : Option QueueQuotes :=
  if mid ≤ 0 ∨ baseHalfSpread < 0 then none
  else
    let fair := mid * (1 + signal)
    let bidHalf := baseHalfSpread + spreadWiden * max signal 0
    let askHalf := baseHalfSpread + spreadWiden * max (-signal) 0
    some ⟨fair, fair * (1 - bidHalf), fair * (1 + askHalf), bidHalf, askHalf⟩

/-- The amounts of a side, but for those that are missing or cannot be decoded. -/
def amounts (side : List PriceLevel) : List ℚ :=
  side.filterMap fun level => level.amount.bind Except.toOption

/-- `QueueMm::fetch_book_totals`; `none` is its error. -/
def bookTotals (orderBook : Except PortError OrderBook) : Option (ℚ × ℚ) :=
  orderBook.toOption.map fun book => ((amounts book.bids).sum, (amounts book.asks).sum)

def QueueMmConfig.plan (config : QueueMmConfig) (impulse : TradeImpulse) (poll : MarketPoll) :
    Option (List Leg) := do
  let mid ← currentMid poll.ticker
  let (bidTotal, askTotal) ← bookTotals poll.orderBook
  let signal := compositeSignal (bookPressure bidTotal askTotal) impulse.normalised config.wPressure
    config.wImpulse
  let quotes ← planQueueQuotes mid (signal * config.alpha) config.halfSpread config.spreadWiden
  return twoSided quotes.bid config.qty quotes.ask config.qty

/-- `QueueMm::tick`. -/
def QueueMmConfig.tick (config : QueueMmConfig) (impulse : TradeImpulse) (poll : MarketPoll) :
    TradeImpulse × List (Call (Request ℚ)) :=
  (impulse, requote config.common false poll.answers (config.plan impulse poll))

end QueueMm

section ObiMm

structure ObiMmConfig where
  common : CommonParams
  halfSpread : ℚ
  signalWeight : ℚ
  qty : ℚ
  depth : Nat

def computeObi (bids asks : List ℚ) (depth : Nat) : Option ℚ :=
  let n := min (min depth bids.length) asks.length
  if n = 0 then none
  else
    let bidTotal := (bids.take n).sum
    let askTotal := (asks.take n).sum
    let denom := bidTotal + askTotal
    if denom = 0 then none else some ((bidTotal - askTotal) / denom)

def fairPrice (mid obi signalWeight : ℚ) : ℚ := mid + signalWeight * obi * mid

structure ObiQuotes where
  fair : ℚ
  bid : ℚ
  ask : ℚ
  bidQty : ℚ
  askQty : ℚ

/-- The caller passes its `signal_weight` for the `size_skew`. -/
def planObiQuotes (mid obi halfSpread baseQty sizeSkew : ℚ) : Option ObiQuotes :=
  if mid ≤ 0 ∨ halfSpread < 0 then none
  else
    let fair := fairPrice mid obi sizeSkew
    let skewFactor := if 0 ≤ obi then 1 + sizeSkew * obi else 1 - sizeSkew * |obi|
    some {
      fair
      bid := fair * (1 - halfSpread)
      ask := fair * (1 + halfSpread)
      bidQty := baseQty * max skewFactor 0
      askQty := baseQty }

def extractSizes (levels : List PriceLevel) : List ℚ := (amounts levels).filter (0 < ·)

def ObiMmConfig.plan (config : ObiMmConfig) (poll : MarketPoll) : Option (List Leg) := do
  let mid ← currentMid poll.ticker
  let book ← poll.orderBook.toOption
  let obi ← computeObi (extractSizes book.bids) (extractSizes book.asks) config.depth
  let quotes ← planObiQuotes mid obi config.halfSpread config.qty config.signalWeight
  return twoSided quotes.bid quotes.bidQty quotes.ask quotes.askQty

/-- `ObiMm::tick`. -/
def ObiMmConfig.tick (config : ObiMmConfig) (poll : MarketPoll) : List (Call (Request ℚ)) :=
  requote config.common false poll.answers (config.plan poll)

end ObiMm

section PerpMm

/-- The symbol of `common` is the `perp_symbol`. -/
structure PerpMmConfig where
  common : CommonParams
  halfSpread : ℚ
  qty : ℚ
  positionLimit : ℚ
  fundingThreshold : ℚ

structure PerpQuotes where
  bid : ℚ
  ask : ℚ
  bidQty : ℚ
  askQty : ℚ
  skew : ℚ

def clamp (value : ℚ) : ℚ := max (-1) (min value 1)

def planPerpQuotes (mid halfSpread qty inventory positionLimit fundingRate fundingThreshold : ℚ) :
    Option (PerpQuotes × Bool) :=
  if mid ≤ 0 ∨ halfSpread < 0 then none
  else
    let invSkew := if 0 < positionLimit then clamp (inventory / positionLimit) else 0
    let fundingSkew := if fundingThreshold ≤ |fundingRate| then if 0 ≤ fundingRate then -1 else 1 else 0
    let skew := clamp (invSkew + fundingSkew)
    let skewHalf := halfSpread * skew
    let bidHalf := halfSpread + skewHalf
    let askHalf := halfSpread - skewHalf
    some (⟨mid * (1 - bidHalf), mid * (1 + askHalf), qty, qty, skew⟩, decide (fundingSkew = 0))

/-- `PerpMm::current_funding_rate`. -/
def currentFundingRate (fundingRate : Except PortError ℚ) : ℚ := fundingRate.toOption.getD 0

def PerpMmConfig.plan (config : PerpMmConfig) (inventory : ℚ) (poll : MarketPoll) : Option (List Leg) := do
  let mid ← currentMid poll.ticker
  let (quotes, _) ← planPerpQuotes mid config.halfSpread config.qty inventory config.positionLimit
    (currentFundingRate poll.fundingRate) config.fundingThreshold
  return twoSided quotes.bid quotes.bidQty quotes.ask quotes.askQty

/-- `PerpMm::tick`. -/
def PerpMmConfig.tick (config : PerpMmConfig) (inventory : ℚ) (poll : MarketPoll) :
    ℚ × List (Call (Request ℚ)) :=
  (inventory, requote config.common false poll.answers (config.plan inventory poll))

end PerpMm

section BollGrid

structure BollGridConfig where
  common : CommonParams
  bollMult : ℚ
  gridNum : Nat
  qty : ℚ

def planLadder (close : ℚ) (bands : Bands ℚ) (gridNum : Nat) : List (ℚ × Bool) :=
  let width := bands.upper - bands.lower
  if width ≤ 0 ∨ bands.upper < close ∨ close < bands.lower then []
  else
    let step := width / ((gridNum + 1 : Nat) : ℚ)
    (List.range' 1 gridNum).flatMap fun (level : Nat) =>
      let offset := step * (level : ℚ)
      let bid := close - offset
      let ask := close + offset
      (if 0 < bid ∧ bands.lower ≤ bid then [(bid, true)] else []) ++
        if ask ≤ bands.upper then [(ask, false)] else []

def BollGridConfig.plan (config : BollGridConfig) (poll : MarketPoll) : Option (List Leg) := do
  let closes := closesOf (← poll.closes.toOption)
  let bands ← (BollingerBands.compute Arithmetic.rational (1 / 10 ^ 8) closes config.bollMult).join
  let close ← closes.getLast?
  return (planLadder close bands config.gridNum).map fun (price, isBuy) => ⟨isBuy, price, config.qty⟩

/-- `BollGrid::tick`, which ends at the first leg that is refused. -/
def BollGridConfig.tick (config : BollGridConfig) (poll : MarketPoll) : List (Call (Request ℚ)) :=
  requote config.common true poll.answers (config.plan poll)

end BollGrid

end LongTrader.Strategy.Quoting
