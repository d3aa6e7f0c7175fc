import LongTrader.Strategy.Pairs
import Mathlib.Algebra.BigOperators.Ring.List

/-! The strategies that trade between two venues: the hedge of a spot holding with a perpetual, the arbitrage
of an exchange against an automated market maker, and the maker that quotes on one venue and hedges on the
other. Prices and amounts are exact rationals. -/

namespace LongTrader.Strategy.CrossVenue

open Supertrend (position signed position_append)

structure CrossVenueParams where
  primary : ExchangeId
  hedge : ExchangeId
  symbol : String

/-- A leg that is accepted is one more accepted order. -/
theorem accepted_leg (submissions : List Submission) (exchangeId : ExchangeId) (symbol : String) (isBuy : Bool)
    (price qty : ℚ) (answer : Option PortError) :
    (accepted (submissions ++ [leg exchangeId symbol isBuy price qty answer])).length =
      (accepted submissions).length + if answer = none then 1 else 0 := by
  cases answer with
  | none => simp [accepted, leg]
  | some error => simp [accepted, leg]

section Hedge

structure HedgeConfig where
  venues : CrossVenueParams
  spotSymbol : String
  perpSymbol : String
  threshold : ℚ
  maxOrderSize : ℚ

/-- `compute_hedge_trade`: the quantity and whether to buy it. -/
def computeHedgeTrade (spotPosition currentPerpPosition threshold : ℚ) : Option (ℚ × Bool) :=
  let targetPerp := -spotPosition
  let drift := |targetPerp - currentPerpPosition|
  let positionSize := max |spotPosition| |currentPerpPosition|
  if positionSize = 0 then none
  else if drift / positionSize < threshold then none
  else some (drift, decide (currentPerpPosition < targetPerp))

/-- What a tick reads, and what the venue says to the order if it refuses it. -/
structure HedgeReading where
  spotTicker : TickerRead ℚ
  perpTicker : TickerRead ℚ
  answer : Option PortError

/-- `Hedge::tick`, with the perpetual position that the strategy keeps. -/
def HedgeConfig.tick (config : HedgeConfig) (perpPosition : ℚ) (reading : HedgeReading) :
    ℚ × List Submission :=
  match fetchPrice reading.spotTicker, fetchPrice reading.perpTicker with
  | some _, some perpPrice =>
    -- The spot holding is taken to be one unit, whatever the account has.
    match computeHedgeTrade 1 perpPosition config.threshold with
    | none => (perpPosition, [])
    | some (tradeQty, isBuy) =>
      let qty := min tradeQty config.maxOrderSize
      (match reading.answer with
        | some _ => perpPosition
        | none => if isBuy then perpPosition + qty else perpPosition - qty,
        [leg config.venues.hedge config.perpSymbol isBuy perpPrice qty reading.answer])
  | _, _ => (perpPosition, [])

/-- How much of the unit some orders have hedged. -/
def HedgeConfig.hedged (config : HedgeConfig) (orders : Nat) : ℚ := min 1 (orders * config.maxOrderSize)

variable (config : HedgeConfig)

/-- One more order takes what is left, but no more than the largest order. -/
theorem HedgeConfig.hedged_succ (orders : Nat) :
    config.hedged (orders + 1) = config.hedged orders + min (1 - config.hedged orders) config.maxOrderSize := by
  rw [hedged, hedged]
  push_cast
  rcases le_or_gt 1 (orders * config.maxOrderSize) with whole | some_left
  · have positive : 0 ≤ config.maxOrderSize := by
      by_contra negative
      have none_hedged := mul_nonpos_of_nonneg_of_nonpos (Nat.cast_nonneg (α := ℚ) orders) (not_le.mp negative).le
      linarith
    rw [min_eq_left whole, min_eq_left (by linarith), sub_self, min_eq_left positive, add_zero]
  · rw [min_eq_right some_left.le, add_mul, one_mul, ← min_add_add_left]
    congr 1
    ring

/-- The strategy only ever sells, up to the unit. -/
theorem HedgeConfig.computeHedgeTrade_hedged (orders : Nat) :
    computeHedgeTrade 1 (-config.hedged orders) config.threshold =
      if config.threshold ≤ (1 - config.hedged orders) / max 1 |config.hedged orders| then
        some (1 - config.hedged orders, false) else none := by
  have within : config.hedged orders ≤ 1 := min_le_left _ _
  have drift : |-1 - -config.hedged orders| = 1 - config.hedged orders := by
    rw [abs_of_nonpos (by linarith)]
    ring
  have held : max (1 : ℚ) |config.hedged orders| ≠ 0 := (lt_max_of_lt_left one_pos).ne'
  have sells : ¬-config.hedged orders < -1 := by linarith
  simp only [computeHedgeTrade, drift, abs_one, abs_neg, if_neg held, decide_eq_false sells]
  by_cases worth : config.threshold ≤ (1 - config.hedged orders) / max 1 |config.hedged orders|
  · rw [if_neg (not_lt.mpr worth), if_pos worth]
  · rw [if_pos (not_le.mp worth), if_neg worth]

/-- What the strategy keeps, and what the venue has, once the venue has accepted some orders. -/
structure HedgeConfig.Hedged (perpPosition : ℚ) (submissions : List Submission) : Prop where
  kept : perpPosition = -config.hedged (accepted submissions).length
  held : position submissions = -config.hedged (accepted submissions).length

/-- When a tick submits an order: it has both prices, and the drift is worth it. -/
def HedgeConfig.Due (orders : Nat) (reading : HedgeReading) : Prop :=
  (fetchPrice reading.spotTicker).isSome ∧ (fetchPrice reading.perpTicker).isSome ∧
    config.threshold ≤ (1 - config.hedged orders) / max 1 |config.hedged orders|

/-- What a tick makes of a position that comes from accepted orders. -/
theorem HedgeConfig.tick_hedged (orders : Nat) (reading : HedgeReading) :
    (¬config.Due orders reading ∧ config.tick (-config.hedged orders) reading = (-config.hedged orders, [])) ∨
    (config.Due orders reading ∧ ∃ price, config.tick (-config.hedged orders) reading =
      (if reading.answer = none then -config.hedged (orders + 1) else -config.hedged orders,
        [leg config.venues.hedge config.perpSymbol false price
          (config.hedged (orders + 1) - config.hedged orders) reading.answer])) := by
  have more : min (1 - config.hedged orders) config.maxOrderSize =
      config.hedged (orders + 1) - config.hedged orders := by
    rw [config.hedged_succ]
    ring
  unfold tick Due
  cases spot : fetchPrice reading.spotTicker with
  | none => simp
  | some spotPrice =>
    cases perp : fetchPrice reading.perpTicker with
    | none => simp
    | some perpPrice =>
      rw [config.computeHedgeTrade_hedged]
      by_cases worth : config.threshold ≤ (1 - config.hedged orders) / max 1 |config.hedged orders|
      · apply Or.inr
        refine ⟨⟨rfl, rfl, worth⟩, perpPrice, ?_⟩
        simp only [if_pos worth, more]
        cases reading.answer with
        | none =>
          simp only [Bool.false_eq_true, if_false, if_true]
          congr 1
          ring
        | some error => rfl
      · apply Or.inl
        exact ⟨fun due => worth due.2.2, by rw [if_neg worth]⟩

theorem HedgeConfig.Hedged.tick (perpPosition : ℚ) (submissions : List Submission) (reading : HedgeReading)
    (before : config.Hedged perpPosition submissions) :
    config.Hedged (config.tick perpPosition reading).1
      (submissions ++ (config.tick perpPosition reading).2) := by
  obtain ⟨rfl, held⟩ := before
  rcases config.tick_hedged (accepted submissions).length reading with ⟨-, still⟩ | ⟨-, price, sold⟩
  · rw [still, List.append_nil]
    exact ⟨rfl, held⟩
  · rw [sold]
    constructor
    · rw [accepted_leg]
      cases reading.answer with
      | none => rfl
      | some error => rfl
    · rw [accepted_leg, position_append, position_leg, held]
      cases reading.answer with
      | none =>
        simp only [Bool.false_eq_true, if_false, if_true]
        ring
      | some error => simp

/-- Whatever is read and refused, the venue holds what the strategy says, short of the unit by what the
accepted orders could not take; and the next order comes just while that is worth it. -/
theorem HedgeConfig.hedge_of_run (readings : List HedgeReading) :
    let after := ticks config.tick 0 readings
    let orders := (accepted after.2).length
    after.1 = -min 1 (orders * config.maxOrderSize) ∧ position after.2 = after.1 ∧
      ∀ reading, (config.tick after.1 reading).2 ≠ [] ↔
        (fetchPrice reading.spotTicker).isSome ∧ (fetchPrice reading.perpTicker).isSome ∧
          config.threshold ≤ (1 + after.1) / max 1 |after.1| := by
  have start : config.Hedged 0 [] := by
    have nothing : config.hedged 0 = 0 := by simp [hedged]
    constructor <;> simp [accepted, position, nothing]
  have hedged := ticks_invariant (Hedged.tick config) start readings
  rw [List.nil_append] at hedged
  obtain ⟨kept, held⟩ := hedged
  refine ⟨kept, held.trans kept.symm, fun reading => ?_⟩
  rw [kept, abs_neg, ← sub_eq_add_neg]
  rcases config.tick_hedged (accepted (ticks config.tick 0 readings).2).length reading with
    ⟨idle, still⟩ | ⟨due, price, sold⟩
  · rw [still]
    exact iff_of_false (fun some_order => some_order rfl) idle
  · rw [sold]
    exact iff_of_true (List.cons_ne_nil _ _) due

end Hedge

section Arbitrage

structure AmmArbConfig where
  venues : CrossVenueParams
  threshold : ℚ
  gasCost : ℚ
  maxQty : ℚ
  minProfit : ℚ

inductive ArbSignal where
  | buyCexSellAmm
  | buyAmmSellCex
  | noArb
  deriving DecidableEq, Repr

def detectArb (cexPrice ammPrice threshold gasCost : ℚ) : Option ArbSignal :=
  if cexPrice ≤ 0 ∨ ammPrice ≤ 0 then none
  else
    let spread := |cexPrice - ammPrice| / min cexPrice ammPrice
    if spread < threshold + gasCost then some .noArb
    else if cexPrice < ammPrice then some .buyCexSellAmm
    else some .buyAmmSellCex

def arbQty (cexPrice ammPrice availableDepth maxQty minProfit : ℚ) : Option ℚ :=
  if cexPrice ≤ 0 ∨ ammPrice ≤ 0 then none
  else
    let priceDiff := |cexPrice - ammPrice|
    if priceDiff = 0 then none
    else
      let minQty := minProfit / priceDiff
      if maxQty < minQty then none
      else some (min (min minQty maxQty) availableDepth)

variable (config : AmmArbConfig)

/-- `AmmArb::tick`. The first ticker is the exchange's, and the first leg is the one that buys. -/
def AmmArbConfig.tick (reading : PairReading) : List Submission :=
  match fetchPrice reading.firstTicker, fetchPrice reading.secondTicker with
  | some cexPrice, some ammPrice =>
    let cex := config.venues.primary
    let amm := config.venues.hedge
    let symbol := config.venues.symbol
    -- Where no quantity makes the least profit, the largest one is traded.
    let qty := (arbQty cexPrice ammPrice config.maxQty config.maxQty config.minProfit).getD config.maxQty
    match detectArb cexPrice ammPrice config.threshold config.gasCost with
    | none | some .noArb => []
    | some .buyCexSellAmm =>
      [leg cex symbol true cexPrice qty reading.firstAnswer, leg amm symbol false ammPrice qty reading.secondAnswer]
    | some .buyAmmSellCex =>
      [leg amm symbol true ammPrice qty reading.firstAnswer, leg cex symbol false cexPrice qty reading.secondAnswer]
  | _, _ => []

/-- What the accepted orders bring in, each at its limit. -/
def proceeds (submissions : List Submission) : ℚ :=
  ((accepted submissions).map fun submission => -signed submission * submission.request.price.getD 0).sum

theorem proceeds_append (first second : List Submission) :
    proceeds (first ++ second) = proceeds first + proceeds second := by
  simp [proceeds, accepted]

/-- The two prices are apart by as much as the strategy asks for. -/
def AmmArbConfig.Apart (cexPrice ammPrice : ℚ) : Prop :=
  config.threshold + config.gasCost ≤ |cexPrice - ammPrice| / min cexPrice ammPrice

instance (cexPrice ammPrice : ℚ) : Decidable (config.Apart cexPrice ammPrice) :=
  inferInstanceAs (Decidable (_ ≤ _))

/-- How far apart the venues are, when a tick trades on it and its legs are accepted. -/
def AmmArbConfig.taken (reading : PairReading) : Option ℚ :=
  match fetchPrice reading.firstTicker, fetchPrice reading.secondTicker with
  | some cexPrice, some ammPrice =>
    if config.Apart cexPrice ammPrice ∧ reading.firstAnswer = none then some |cexPrice - ammPrice| else none
  | _, _ => none

/-- What a pair of legs brings in: the least profit, or less. -/
def AmmArbConfig.gain (gap : ℚ) : ℚ := min config.minProfit (gap * config.maxQty)

theorem fetchPrice_pos {ticker : TickerRead ℚ} {price : ℚ} (read : fetchPrice ticker = some price) : 0 < price := by
  unfold fetchPrice at read
  split at read
  · obtain ⟨positive, same⟩ := Option.ite_none_right_eq_some.mp read
    rwa [← Option.some.inj same]
  · cases read

/-- The quantity is chosen so that the gap makes the least profit, if it can. -/
theorem AmmArbConfig.gain_eq (profitable : 0 ≤ config.minProfit) {cexPrice ammPrice : ℚ} (cex : 0 < cexPrice)
    (amm : 0 < ammPrice) :
    |cexPrice - ammPrice| *
        (arbQty cexPrice ammPrice config.maxQty config.maxQty config.minProfit).getD config.maxQty =
      config.gain |cexPrice - ammPrice| := by
  have priced : ¬(cexPrice ≤ 0 ∨ ammPrice ≤ 0) := by
    rintro (none_left | none_right) <;> linarith
  simp only [arbQty, if_neg priced, gain]
  by_cases same : |cexPrice - ammPrice| = 0
  · rw [same, zero_mul, zero_mul, min_eq_right profitable]
  · have gap : 0 < |cexPrice - ammPrice| := lt_of_le_of_ne (abs_nonneg _) (Ne.symm same)
    rw [if_neg same]
    by_cases small : config.maxQty < config.minProfit / |cexPrice - ammPrice|
    · rw [if_pos small, Option.getD_none, min_eq_right]
      rw [mul_comm]
      exact ((lt_div_iff₀ gap).mp small).le
    · have enough : config.minProfit / |cexPrice - ammPrice| ≤ config.maxQty := not_lt.mp small
      rw [if_neg small, Option.getD_some, min_eq_left enough, min_eq_left enough, mul_div_cancel₀ _ same,
        min_eq_left]
      rw [mul_comm]
      exact (div_le_iff₀ gap).mp enough

/-- The venues answer the two legs of a tick alike. -/
def Alike (reading : PairReading) : Prop := reading.firstAnswer = none ↔ reading.secondAnswer = none

/-- What the venues have after some pairs of legs: no base, and the gain of each gap that was taken. -/
structure AmmArbConfig.Settled (submissions : List Submission) (gaps : List ℚ) : Prop where
  base : position submissions = 0
  quote : proceeds submissions = (gaps.map config.gain).sum
  legs : (accepted submissions).length = 2 * gaps.length

variable {config}

theorem AmmArbConfig.Settled.nil : config.Settled [] [] := ⟨rfl, rfl, rfl⟩

theorem AmmArbConfig.Settled.append {first second : List Submission} {gaps later : List ℚ}
    (before : config.Settled first gaps) (after : config.Settled second later) :
    config.Settled (first ++ second) (gaps ++ later) := by
  constructor
  · rw [position_append, before.base, after.base, add_zero]
  · rw [proceeds_append, before.quote, after.quote, List.map_append, List.sum_append]
  · have together : accepted (first ++ second) = accepted first ++ accepted second := List.filter_append _ _
    rw [together, List.length_append, before.legs, after.legs, List.length_append]
    ring

/-- Two legs of one quantity settle their gap if they are accepted, and nothing if they are not. -/
theorem AmmArbConfig.Settled.pair {bought sold : ExchangeId} {symbol : String} {low high qty gap : ℚ}
    {firstAnswer secondAnswer : Option PortError} (alike : firstAnswer = none ↔ secondAnswer = none)
    (gains : (high - low) * qty = config.gain gap) :
    config.Settled [leg bought symbol true low qty firstAnswer, leg sold symbol false high qty secondAnswer]
      (if firstAnswer = none then [gap] else []) := by
  cases firstAnswer with
  | none =>
    obtain rfl := alike.mp rfl
    constructor
    · simp [position, accepted, leg, signed, limitOrder, orderRequest]
    · simp only [proceeds, accepted, leg, signed, limitOrder, orderRequest, if_true, List.map_cons, List.map_nil,
        List.sum_cons, List.sum_nil, ← gains]
      simp
      ring
    · simp [accepted, leg]
  | some error =>
    cases secondAnswer with
    | none => cases alike.mpr rfl
    | some other => constructor <;> simp [position, proceeds, accepted, leg]

theorem AmmArbConfig.tick_settled (profitable : 0 ≤ config.minProfit) {reading : PairReading}
    (alike : Alike reading) : config.Settled (config.tick reading) (config.taken reading).toList := by
  unfold AmmArbConfig.tick AmmArbConfig.taken
  cases first : fetchPrice reading.firstTicker with
  | none => exact .nil
  | some cexPrice =>
    cases second : fetchPrice reading.secondTicker with
    | none => exact .nil
    | some ammPrice =>
      have cex := fetchPrice_pos first
      have amm := fetchPrice_pos second
      have gains := AmmArbConfig.gain_eq config profitable cex amm
      have priced : ¬(cexPrice ≤ 0 ∨ ammPrice ≤ 0) := by
        rintro (none_left | none_right) <;> linarith
      simp only [detectArb, if_neg priced]
      by_cases apart : config.Apart cexPrice ammPrice
      · have traded : ∀ {α : Type} (gap : α), (if config.Apart cexPrice ammPrice ∧ reading.firstAnswer = none
            then some gap else none).toList = if reading.firstAnswer = none then [gap] else [] := by
          intro α gap
          by_cases taken : reading.firstAnswer = none <;> simp [apart, taken]
        rw [if_neg (not_lt.mpr apart), traded]
        by_cases cheaper : cexPrice < ammPrice
        · rw [if_pos cheaper]
          apply Settled.pair alike
          rw [← gains, abs_of_neg (sub_neg.mpr cheaper), neg_sub]
        · rw [if_neg cheaper]
          apply Settled.pair alike
          rw [← gains, abs_of_nonneg (sub_nonneg.mpr (not_lt.mp cheaper))]
      · rw [if_pos (not_le.mp apart), if_neg (fun taken => apart taken.1)]
        exact .nil

/-- Venues that answer the two legs alike are left with no base, and with at most the configured least
profit for each pair: what bounds the quantity from below in name bounds the gain from above. -/
theorem AmmArbConfig.pairs_gain_at_most (profitable : 0 ≤ config.minProfit) {readings : List PairReading}
    (alike : ∀ reading ∈ readings, Alike reading) :
    let submissions := readings.flatMap config.tick
    position submissions = 0 ∧
      proceeds submissions =
        ((readings.filterMap config.taken).map fun gap => min config.minProfit (gap * config.maxQty)).sum ∧
      2 * proceeds submissions ≤ (accepted submissions).length * config.minProfit := by
  have settled : config.Settled (readings.flatMap config.tick) (readings.filterMap config.taken) := by
    induction readings with
    | nil => exact .nil
    | cons reading rest ih =>
      have now := tick_settled profitable (alike reading List.mem_cons_self)
      have later := ih fun other member => alike other (List.mem_cons_of_mem reading member)
      have all := now.append later
      rw [List.flatMap_cons]
      cases taken : config.taken reading with
      | none =>
        rw [List.filterMap_cons_none taken]
        rwa [taken] at all
      | some gap =>
        rw [List.filterMap_cons_some taken]
        rwa [taken] at all
  refine ⟨settled.base, settled.quote, ?_⟩
  have capped : ((readings.filterMap config.taken).map config.gain).sum ≤
      (readings.filterMap config.taken).length * config.minProfit := by
    have each := List.sum_le_card_nsmul ((readings.filterMap config.taken).map config.gain) config.minProfit (by
      intro gain member
      obtain ⟨gap, -, rfl⟩ := List.mem_map.mp member
      exact min_le_left _ _)
    rwa [List.length_map, nsmul_eq_mul] at each
  rw [settled.quote, settled.legs]
  push_cast
  linarith

/-- One tick that makes the least profit, and one that falls short of it and trades all the same. -/
theorem pairs_gain_at_most_twice :
    let config : AmmArbConfig := ⟨⟨⟨"binance", ""⟩, ⟨"okx", ""⟩, "ETHUSDT"⟩, 1 / 200, 1 / 1000, 1 / 2, 1⟩
    let readings : List PairReading :=
      [⟨.ok (some (.ok 100)), .ok (some (.ok 104)), none, none⟩, ⟨.ok (some (.ok 101)), .ok (some (.ok 100)), none, none⟩]
    position (readings.flatMap config.tick) = 0 ∧ proceeds (readings.flatMap config.tick) = 3 / 2 := by
  intro config readings
  have alike : ∀ reading ∈ readings, Alike reading := by simp [readings, Alike]
  have profitable : 0 ≤ config.minProfit := by decide
  obtain ⟨base, quote, -⟩ := AmmArbConfig.pairs_gain_at_most profitable alike
  refine ⟨base, quote.trans ?_⟩
  decide +kernel

end Arbitrage

end LongTrader.Strategy.CrossVenue
