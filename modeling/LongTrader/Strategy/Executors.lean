import LongTrader.Strategy.Order
import LongTrader.Indicators.Rational
import Mathlib.Algebra.BigOperators.Group.List.Basic
import Mathlib.Algebra.Order.Field.Rat

/-! The executors that work a large order off in child orders: TWAP over time, and VWAP along the
book. The amounts that they work off are exact. -/

namespace LongTrader.Strategy

open Indicators

/-- A child order and whether the venue has accepted it. -/
structure Submission where
  request : Request ℚ
  accepted : Bool

/-- `current_mid` of both executors; `none` is any of its errors. -/
def currentMid (ticker : TickerRead ℚ) : Option ℚ :=
  match ticker with
  | .ok (some (.ok last)) => if 0 < last then some last else none
  | _ => none

/-- A run of ticks, with all the child orders that they submit. -/
def ticks {σ ρ : Type} (tick : σ → ρ → σ × List Submission) : σ → List ρ → σ × List Submission
  | executor, [] => (executor, [])
  | executor, reading :: rest =>
    let next := tick executor reading
    let last := ticks tick next.1 rest
    (last.1, next.2 ++ last.2)

namespace Twap

structure TwapConfig where
  exchangeId : ExchangeId
  symbol : String
  totalAmount : ℚ
  durationSecs : Nat
  numOrders : Nat
  isBuy : Bool
  isMaker : Bool
  limitBuffer : ℚ

inductive TwapState where
  | active
  | complete
  deriving DecidableEq, Repr

structure TwapExecutor where
  state : TwapState
  nextIndex : Nat
  nextTime : Nat

/-- `TwapExecutor::new`. -/
def TwapExecutor.new : TwapExecutor := ⟨.active, 0, 0⟩

/-- What a tick reads: the clock, the ticker and the answer to its child order, if it is refused. -/
structure Reading where
  now : Nat
  ticker : TickerRead ℚ
  answer : Option PortError

def TwapConfig.stepAmount (config : TwapConfig) : ℚ := config.totalAmount / config.numOrders

/-- The limit of a child order: behind the mid for a maker, and far through it for a taker. -/
def TwapConfig.price (config : TwapConfig) (mid : ℚ) : ℚ :=
  if config.isMaker then
    if config.isBuy then mid * (1 - config.limitBuffer) else mid * (1 + config.limitBuffer)
  else if config.isBuy then mid * (1 + 5 / 100)
  else mid * (1 - 5 / 100)

/-- `TwapExecutor::tick`, with the child order that it submits. The clock is a `u64`. -/
def TwapExecutor.tick (config : TwapConfig) (executor : TwapExecutor) (reading : Reading) :
    TwapExecutor × List Submission :=
  if executor.state = .complete then (executor, [])
  else if config.numOrders ≤ executor.nextIndex then ({ executor with state := .complete }, [])
  else if reading.now < executor.nextTime then (executor, [])
  else match currentMid reading.ticker with
    | none => (executor, [])
    | some mid =>
      let request := limitOrder config.exchangeId config.symbol config.isBuy (config.price mid) config.stepAmount
      -- A refusal is logged, and the schedule goes on as if there were none.
      ({ executor with
          nextIndex := executor.nextIndex + 1
          nextTime := (reading.now + config.durationSecs / config.numOrders) % 2 ^ 64 },
        [⟨request, reading.answer.isNone⟩])

/-- The ticks of a new executor. -/
def run (config : TwapConfig) (readings : List Reading) : TwapExecutor × List Submission :=
  ticks (TwapExecutor.tick config) .new readings

end Twap

namespace Vwap

structure VwapConfig where
  exchangeId : ExchangeId
  symbol : String
  totalAmount : ℚ
  priceSpread : ℚ
  volumePerc : ℚ
  orderDelaySecs : Nat
  isBuy : Bool

structure VwapOrder (P : Type) where
  price : P
  amount : P
  deriving DecidableEq

section Planning

variable {P : Type} [LinearOrder P] (arith : Arithmetic P)

/-- The loop of `plan_vwap_orders`, with what is left of the amount; `none` is the panic of an operator. -/
def planLevels (mid cap volumePerc : P) : P → List (P × P) → Option (List (VwapOrder P))
  | _, [] => some []
  | remaining, (price, size) :: levels => do
    let distance ← arith.sub price mid
    if cap < arith.abs distance then planLevels mid cap volumePerc remaining levels
    else
      let amount ← arith.mul size volumePerc
      if amount ≤ arith.ofNat 0 then planLevels mid cap volumePerc remaining levels
      else
        let actual := min amount remaining
        let left ← arith.sub remaining actual
        if left ≤ arith.ofNat 0 then return [⟨price, actual⟩]
        else
          let further ← planLevels mid cap volumePerc left levels
          return ⟨price, actual⟩ :: further

/-- `plan_vwap_orders`; the outer `none` is the panic of an operator. -/
def planVwapOrders (mid priceSpread volumePerc totalAmount : P) (levels : List (P × P)) :
    Option (Option (List (VwapOrder P))) :=
  if mid ≤ arith.ofNat 0 ∨ priceSpread < arith.ofNat 0 ∨ volumePerc ≤ arith.ofNat 0 then some none
  else do
    let cap ← arith.mul mid priceSpread
    let orders ← planLevels arith mid cap volumePerc totalAmount levels
    return if orders = [] then none else some orders

end Planning

structure VwapExecutor where
  remaining : ℚ
  lastOrder : Nat

/-- `VwapExecutor::new`. -/
def VwapExecutor.new (config : VwapConfig) : VwapExecutor := ⟨config.totalAmount, 0⟩

/-- A level of the book, by its price and its size. -/
abbrev BookLevel := Option (Except DecimalConvertError ℚ) × Option (Except DecimalConvertError ℚ)

structure OrderBook where
  bids : List BookLevel
  asks : List BookLevel

/-- What a tick reads: the clock, the ticker, the book and the answers to its child orders. -/
structure Reading where
  now : Nat
  ticker : TickerRead ℚ
  book : Except PortError OrderBook
  answers : Nat → Option PortError

/-- The levels of `fetch_book_levels`. -/
def bookLevels (book : OrderBook) : List (ℚ × ℚ) :=
  (book.bids ++ book.asks).filterMap fun level => match level with
    | (some (.ok price), some (.ok amount)) => if 0 < price ∧ 0 < amount then some (price, amount) else none
    | _ => none

/-- The loop over the planned orders: what is left then, and what was submitted. -/
def submitOrders (config : VwapConfig) : (Nat → Option PortError) → ℚ → List (VwapOrder ℚ) → ℚ × List Submission
  | _, remaining, [] => (remaining, [])
  | answers, remaining, order :: rest =>
    let request := limitOrder config.exchangeId config.symbol config.isBuy order.price order.amount
    -- A refusal is logged, and the amount counts as worked off all the same.
    let tail := submitOrders config (fun n => answers (n + 1)) (remaining - order.amount) rest
    (tail.1, ⟨request, (answers 0).isNone⟩ :: tail.2)

/-- `VwapExecutor::tick`, with the child orders that it submits. -/
def VwapExecutor.tick (config : VwapConfig) (executor : VwapExecutor) (reading : Reading) :
    VwapExecutor × List Submission :=
  if executor.remaining ≤ 0 then (executor, [])
  else if reading.now < (executor.lastOrder + config.orderDelaySecs) % 2 ^ 64 then (executor, [])
  else match currentMid reading.ticker, reading.book with
    | some mid, .ok book =>
      match planVwapOrders Arithmetic.rational mid config.priceSpread config.volumePerc executor.remaining
        (bookLevels book) with
      | some (some orders) =>
        let submitted := submitOrders config reading.answers executor.remaining orders
        (⟨submitted.1, reading.now⟩, submitted.2)
      | _ => (executor, [])
    | _, _ => (executor, [])

/-- The ticks of a new executor. -/
def run (config : VwapConfig) (readings : List Reading) : VwapExecutor × List Submission :=
  ticks (VwapExecutor.tick config) (.new config) readings

end Vwap

end LongTrader.Strategy
