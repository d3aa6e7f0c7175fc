import LongTrader.Session.Gate

/-! The order-submitting RPCs of the trading proxy. -/

namespace LongTrader.Session

open Interleave

/-- What an order-submitting RPC answers with instead of orders. -/
inductive ProxyError where
  | gate (error : ManagerError)
  | port (error : PortError)
  deriving DecidableEq, Repr

/-- `TradingProxy`. Without a manager neither gating nor attribution happens. -/
structure TradingProxy where
  defaultExchange : ExchangeId
  manager : Option SessionManager

def SessionManager.tradingProxy (manager : SessionManager) : TradingProxy :=
  ⟨manager.defaultExchange, some manager⟩

def resolvedExchange (field : Option ExchangeId) (defaultExchange : ExchangeId) : ExchangeId :=
  field.getD defaultExchange

def gateSubmission (manager : Option SessionManager) (sid : String) :
    Task (Except ManagerError (Option String)) :=
  match manager with
  | some _ => authorizeOrderSubmission sid
  | none => return .ok none

def attributeOrders (manager : Option SessionManager) (handle : Option String) (orders : List Order) :
    Task Unit := do
  match manager, handle with
  | some manager, some sid =>
    recordSubmittedOrders sid orders
    unwindLateSubmissions manager sid orders
  | _, _ => return ()

/-- Ask the venue which of a failed batch's legs it actually accepted. -/
def acceptedBatchOrders (exchange : ExchangeId) (requested : List String) : Task (List Order) := do
  let wanted := requested.filter (· ≠ "")
  match ← perform (.fetchOpenOrders exchange) with
  | .ok orders => return orders.filter fun order => decide (order.clientOrderId ∈ wanted)
  | .error _ => return []

def TradingProxy.createOrder (proxy : TradingProxy) (request : CreateOrderRequest) :
    Task (Except ProxyError Order) := do
  match ← gateSubmission proxy.manager request.sessionId with
  | .error error => return .error (.gate error)
  | .ok session =>
    let exchange := resolvedExchange request.exchangeId proxy.defaultExchange
    match ← perform (.createOrder { request with exchangeId := some exchange }) with
    | .error error => return .error (.port error)
    | .ok order =>
      attributeOrders proxy.manager session [order]
      return .ok order

def TradingProxy.createOrders (proxy : TradingProxy) (request : CreateOrdersRequest) :
    Task (Except ProxyError (List Order)) := do
  match ← gateSubmission proxy.manager request.sessionId with
  | .error error => return .error (.gate error)
  | .ok session =>
    let exchange := resolvedExchange request.exchangeId proxy.defaultExchange
    let requested := request.orders.map (·.clientOrderId)
    match ← perform (.createOrders { request with exchangeId := some exchange }) with
    | .ok orders =>
      attributeOrders proxy.manager session orders
      return .ok orders
    | .error error =>
      if session.isSome then
        let accepted ← acceptedBatchOrders exchange requested
        attributeOrders proxy.manager session accepted
      return .error (.port error)

end LongTrader.Session
