import LongTrader.Contract
import Mathlib.Order.Lattice

/-! The orders that the strategies of the worker submit. Prices and amounts are numbers of any
ordered type, so that nothing depends on how `rust_decimal` rounds. -/

namespace LongTrader.Strategy

/-- `trading.v1.OrderType`, the two values that a strategy asks for. -/
inductive OrderType where
  | limit
  | market
  deriving DecidableEq, Repr

/-- `trading.v1.CreateOrderRequest` as a strategy fills it in, but for the random client order id
and the fields that are the same in every request. -/
structure Request (P : Type) where
  exchangeId : ExchangeId
  symbol : String
  type : OrderType
  side : OrderSide
  amount : P
  price : Option P
  deriving DecidableEq, Repr

variable {P : Type}

def orderRequest (exchangeId : ExchangeId) (symbol : String) (isBuy : Bool) (price : Option P) (qty : P)
    (isMarket : Bool) : Request P where
  exchangeId
  symbol
  type := if isMarket then .market else .limit
  side := if isBuy then .buy else .sell
  amount := qty
  price

def limitOrder (exchangeId : ExchangeId) (symbol : String) (isBuy : Bool) (price qty : P) : Request P :=
  orderRequest exchangeId symbol isBuy (some price) qty false

def marketOrder (exchangeId : ExchangeId) (symbol : String) (isBuy : Bool) (qty : P) : Request P :=
  orderRequest exchangeId symbol isBuy none qty true

/-- How the venue answers a submission. `lost` is an order that the venue accepts although the caller gets
the error: the answer was cut off, or came too late. -/
inductive CreateAnswer where
  | accepted (orderId : String)
  | refused (error : PortError)
  | lost (error : PortError)

/-- Whether the caller gets an order id. -/
def CreateAnswer.isOk : CreateAnswer → Bool
  | accepted _ => true
  | refused _ | lost _ => false

/-- Whether the venue accepts the order. -/
def CreateAnswer.isAccepted : CreateAnswer → Bool
  | accepted _ | lost _ => true
  | refused _ => false

/-- The last price that a read of the ticker returns, if it has one and it can be decoded. -/
abbrev TickerRead (P : Type) := Except PortError (Option (Except DecimalConvertError P))

end LongTrader.Strategy
