import LongTrader.DecimalCodec
import LongTrader.Relay.Errors
import LongTrader.Service
import LongTrader.Session.Ledger
import LongTrader.Session.Proxy

/-! Conditional orders behind a chain of workers: each worker's remote adapter speaks to the proxy of the
next one, and the last proxy to the venue. -/

namespace LongTrader.Relay

open Session

/-- `ports::TriggerOrderRequest`. -/
structure TriggerOrderRequest where
  clientOrderId : String
  symbol : String
  isBuy : Bool
  triggerPrice : Decimal
  qty : Decimal
  reduceOnly : Bool
  deriving DecidableEq, Repr

/-- `ports::TriggerOrderStatus`; `resting` is `Open`. -/
inductive TriggerOrderStatus where
  | resting
  | triggered
  | canceled
  | rejected
  deriving DecidableEq, Repr

/-- `TriggerOrderStatus::as_str`. -/
def TriggerOrderStatus.asStr : TriggerOrderStatus → String
  | .resting => "open"
  | .triggered => "triggered"
  | .canceled => "canceled"
  | .rejected => "rejected"

/-- `ports::TriggerOrder`. -/
structure TriggerOrder where
  id : String
  clientOrderId : String
  symbol : String
  isBuy : Bool
  triggerPrice : Decimal
  qty : Decimal
  reduceOnly : Bool
  status : TriggerOrderStatus
  createdAtMs : Int
  orderId : Option String
  triggeredAtMs : Option Int
  deriving DecidableEq, Repr

/-- `trading.v1.TriggerOrderRequest`, but for the legs that are the same in every request. -/
structure WireTriggerOrderRequest where
  clientOrderId : String
  symbol : String
  side : OrderSide
  triggerPrice : Option String
  qty : Option String
  reduceOnly : Bool

/-- `trading.v1.TriggerOrderStatus`, which is open. -/
inductive WireTriggerOrderStatus where
  | unspecified
  | known (status : TriggerOrderStatus)
  | unknown (value : Int)

/-- `trading.v1.TriggerOrder`, but for the legs that are the same in every answer. -/
structure WireTriggerOrder where
  id : String
  clientOrderId : String
  symbol : String
  side : OrderSide
  triggerPrice : Option String
  qty : Option String
  reduceOnly : Bool
  status : WireTriggerOrderStatus
  createdAt : Option Timestamp
  orderId : Option String
  triggeredAt : Option Timestamp

/-- `TriggerOrderGateway`, on a venue whose state is a `σ`. -/
structure TriggerPort (σ : Type) where
  create : Int → ExchangeId → TriggerOrderRequest → σ → Except PortError TriggerOrder × σ
  cancel : ExchangeId → String → String → σ → Except PortError TriggerOrder × σ
  list : ExchangeId → List String → σ → Except PortError (List TriggerOrder)

/-- `str::trim` leaves nothing. -/
def isBlank (text : String) : Bool := text.toList.all isWhitespace

/-- `Decimal::is_sign_negative() || Decimal::is_zero()`. -/
def isNotPositive (decimal : Decimal) : Bool := isSignNegative decimal || decimal.coefficient == 0

section Codec

variable (ops : DecimalOps)

/-- `mock::validate_trigger_request`, and the same checks in the remote adapter. -/
def validateTriggerRequest (request : TriggerOrderRequest) : Except PortError Unit :=
  if isBlank request.symbol then .error (.missingField "symbol")
  else if isNotPositive request.qty then
    .error (.invalidArgument ("trigger order qty must be positive, got " ++ ops.render request.qty))
  else if isNotPositive request.triggerPrice then
    .error (.invalidArgument
      ("trigger order trigger_price must be positive, got " ++ ops.render request.triggerPrice))
  else .ok ()

/-- A decimal field of a request, as the proxy reads it. -/
def requiredDecimal (payload : Option String) (field : String) : Except ConnectError Decimal :=
  match payload with
  | none => .error ⟨.invalidArgument, field ++ " is required"⟩
  | some payload => match commonToDecimal ops payload with
    | .error error => .error ⟨.invalidArgument, error.display⟩
    | .ok decimal => .ok decimal

/-- `proxy::trigger_request_from_unified`. -/
def triggerRequestFromUnified (request : Option WireTriggerOrderRequest) :
    Except ConnectError TriggerOrderRequest := do
  match request with
  | none => .error ⟨.invalidArgument, "order is required"⟩
  | some request =>
    let triggerPrice ← requiredDecimal ops request.triggerPrice "trigger_price"
    let qty ← requiredDecimal ops request.qty "qty"
    let isBuy ← match request.side with
      | .buy => Except.ok true
      | .sell => .ok false
      | .unspecified => .error ⟨.invalidArgument,
          "order.side Unspecified is not valid for a conditional order; use BUY or SELL"⟩
      | .unknown value => .error ⟨.invalidArgument, "unknown order side discriminant " ++ toString value⟩
    return ⟨request.clientOrderId, request.symbol, isBuy, triggerPrice, qty, request.reduceOnly⟩

/-- `proxy::trigger_order_to_unified`. -/
def triggerOrderToUnified (order : TriggerOrder) : WireTriggerOrder where
  id := order.id
  clientOrderId := order.clientOrderId
  symbol := order.symbol
  side := if order.isBuy then .buy else .sell
  triggerPrice := some (ops.render order.triggerPrice)
  qty := some (ops.render order.qty)
  reduceOnly := order.reduceOnly
  status := .known order.status
  createdAt := some (timestampFromMs order.createdAtMs)
  orderId := order.orderId
  triggeredAt := order.triggeredAtMs.map timestampFromMs

/-- `remote::ms_from_ts`, which saturates. -/
def msFromTs (ts : Timestamp) : Int :=
  let seconds := ts.seconds * 1000
  let total := seconds + nanosToMillis ts.nanos
  if fitsI64 seconds && fitsI64 total then total
  else if 0 < ts.seconds then 2 ^ 63 - 1 else -(2 ^ 63)

/-- `remote::trigger_order_to_port`. -/
def triggerOrderToPort (order : WireTriggerOrder) : Except PortError TriggerOrder := do
  let isBuy ← match order.side with
    | .buy => Except.ok true
    | .sell => .ok false
    | .unspecified => .error (.invalidArgument
        ("trigger order " ++ order.id ++ " has invalid side Unspecified"))
    | .unknown value => .error (.invalidArgument
        ("trigger order " ++ order.id ++ " has unknown side discriminant " ++ toString value))
  let status ← match order.status with
    | .known status => Except.ok status
    | .unspecified => .error (.invalidArgument
        ("trigger order " ++ order.id ++ " has invalid status Unspecified"))
    | .unknown value => .error (.invalidArgument
        ("trigger order " ++ order.id ++ " has unknown status discriminant " ++ toString value))
  let triggerPrice ← dec ops order.triggerPrice "trigger_price"
  let qty ← dec ops order.qty "qty"
  return ⟨order.id, order.clientOrderId, order.symbol, isBuy, triggerPrice, qty, order.reduceOnly, status,
    (order.createdAt.map msFromTs).getD 0, order.orderId, order.triggeredAt.map msFromTs⟩

end Codec

section Workers

variable {σ : Type} (ops : DecimalOps) (connect : Connect)

/-- What the RPCs of `TradingProxy` share. A call without a session is an operator's, which the gate lets
pass. -/
structure WorkerProxy where
  defaultExchange : ExchangeId
  gate : String → Except ConnectError Unit
  operator : gate "" = .ok ()

/-- A worker without a session gate. -/
def openWorker : WorkerProxy := ⟨⟨"mock", ""⟩, fun _ => .ok (), rfl⟩

/-- `TradingProxy::create_trigger_order`. -/
def WorkerProxy.create (proxy : WorkerProxy) (port : TriggerPort σ) (now : Int)
    (exchangeId : Option ExchangeId) (sessionId : String) (order : Option WireTriggerOrderRequest)
    (venue : σ) : Except ConnectError WireTriggerOrder × σ :=
  match proxy.gate sessionId with
  | .error error => (.error error, venue)
  | .ok () => match triggerRequestFromUnified ops order with
    | .error error => (.error error, venue)
    | .ok request => match port.create now (resolvedExchange exchangeId proxy.defaultExchange) request venue with
      | (.error error, venue) => (.error (mapPort connect error), venue)
      | (.ok order, venue) => (.ok (triggerOrderToUnified ops order), venue)

/-- `TradingProxy::cancel_trigger_order`. -/
def WorkerProxy.cancel (proxy : WorkerProxy) (port : TriggerPort σ) (exchangeId : Option ExchangeId)
    (orderId symbol : String) (venue : σ) : Except ConnectError WireTriggerOrder × σ :=
  match port.cancel (resolvedExchange exchangeId proxy.defaultExchange) orderId symbol venue with
  | (.error error, venue) => (.error (mapPort connect error), venue)
  | (.ok order, venue) => (.ok (triggerOrderToUnified ops order), venue)

/-- `TradingProxy::list_trigger_orders`. -/
def WorkerProxy.list (proxy : WorkerProxy) (port : TriggerPort σ) (exchangeId : Option ExchangeId)
    (symbols : List String) (venue : σ) : Except ConnectError (List WireTriggerOrder) :=
  match port.list (resolvedExchange exchangeId proxy.defaultExchange) symbols venue with
  | .error error => .error (mapPort connect error)
  | .ok orders => .ok (orders.map (triggerOrderToUnified ops))

/-- `RemoteAdapter` as a `TriggerOrderGateway`, speaking to the proxy of another worker. -/
def remoteTriggers (proxy : WorkerProxy) (port : TriggerPort σ) : TriggerPort σ where
  create now exchange request venue :=
    match validateTriggerRequest ops request with
    | .error error => (.error error, venue)
    | .ok () =>
      let order : WireTriggerOrderRequest :=
        ⟨request.clientOrderId, request.symbol, if request.isBuy then .buy else .sell,
          some (ops.render request.triggerPrice), some (ops.render request.qty), request.reduceOnly⟩
      match proxy.create ops connect port now (some exchange) "" (some order) venue with
      | (.error error, venue) => (.error (received connect error), venue)
      | (.ok order, venue) =>
        if order.id = "" then
          (.error (.transport "venue returned a trigger order with no id"), venue)
        else (triggerOrderToPort ops order, venue)
  cancel exchange orderId symbol venue :=
    if isBlank orderId then (.error (.missingField "order_id"), venue)
    else match proxy.cancel ops connect port (some exchange) orderId symbol venue with
      | (.error error, venue) => (.error (received connect error), venue)
      | (.ok order, venue) => (triggerOrderToPort ops order, venue)
  list exchange symbols venue :=
    match proxy.list ops connect port (some exchange) symbols venue with
    | .error error => .error (received connect error)
    | .ok orders => orders.mapM (triggerOrderToPort ops)

/-- The port of the first of the workers in front of a venue. -/
def chain (workers : List WorkerProxy) (venue : TriggerPort σ) : TriggerPort σ :=
  workers.foldr (remoteTriggers ops connect) venue

end Workers

section RoundTrip

variable {ops : DecimalOps}

/-- The instants whose seconds alone do not leave the range of milliseconds. -/
def Instant (ms : Int) : Prop := -9223372036854775000 ≤ ms ∧ ms < 2 ^ 63

structure TriggerOrderRequest.Fits (request : TriggerOrderRequest) : Prop where
  triggerPrice : request.triggerPrice.Fits
  qty : request.qty.Fits

structure TriggerOrder.Fits (order : TriggerOrder) : Prop where
  triggerPrice : order.triggerPrice.Fits
  qty : order.qty.Fits
  createdAtMs : Instant order.createdAtMs
  triggeredAtMs : ∀ ms ∈ order.triggeredAtMs, Instant ms

theorem msFromTs_fromMs {ms : Int} (instant : Instant ms) : msFromTs (timestampFromMs ms) = ms := by
  obtain ⟨late, early⟩ := instant
  have seconds : (timestampFromMs ms).seconds = ms / 1000 := rfl
  have sum : ms / 1000 * 1000 + ms % 1000 = ms := by omega
  have product : fitsI64 (ms / 1000 * 1000) = true := by
    rw [fitsI64_iff]
    omega
  have total : fitsI64 ms = true := by
    rw [fitsI64_iff]
    omega
  unfold msFromTs
  simp only [timestampFromMs_nanos, seconds, sum, product, total, Bool.and_self, if_true]

variable (lossless : ops.Lossless)

include lossless

theorem dec_render {decimal : Decimal} (fits : decimal.Fits) (field : String) :
    dec ops (some (ops.render decimal)) field = .ok decimal := by
  simp only [dec, commonToDecimal_render lossless fits]

theorem requiredDecimal_render {decimal : Decimal} (fits : decimal.Fits) (field : String) :
    requiredDecimal ops (some (ops.render decimal)) field = .ok decimal := by
  simp only [requiredDecimal, commonToDecimal_render lossless fits]

theorem triggerOrderToPort_unified {order : TriggerOrder} (fits : order.Fits) :
    triggerOrderToPort ops (triggerOrderToUnified ops order) = .ok order := by
  have created : ((triggerOrderToUnified ops order).createdAt.map msFromTs).getD 0 = order.createdAtMs :=
    msFromTs_fromMs fits.createdAtMs
  have triggered : (triggerOrderToUnified ops order).triggeredAt.map msFromTs = order.triggeredAtMs := by
    change (order.triggeredAtMs.map timestampFromMs).map msFromTs = order.triggeredAtMs
    cases at_ : order.triggeredAtMs with
    | none => rfl
    | some ms => exact congrArg some (msFromTs_fromMs (fits.triggeredAtMs ms at_))
  have price : dec ops (triggerOrderToUnified ops order).triggerPrice "trigger_price" =
      .ok order.triggerPrice := dec_render lossless fits.triggerPrice _
  have qty : dec ops (triggerOrderToUnified ops order).qty "qty" = .ok order.qty :=
    dec_render lossless fits.qty _
  unfold triggerOrderToPort
  rw [price, qty, created, triggered]
  obtain ⟨id, clientOrderId, symbol, isBuy, triggerPrice, qty, reduceOnly, status, createdAtMs, orderId,
    triggeredAtMs⟩ := order
  cases isBuy <;> rfl

theorem triggerRequestFromUnified_written {request : TriggerOrderRequest} (fits : request.Fits) :
    triggerRequestFromUnified ops (some ⟨request.clientOrderId, request.symbol,
        if request.isBuy then .buy else .sell, some (ops.render request.triggerPrice),
        some (ops.render request.qty), request.reduceOnly⟩) = .ok request := by
  unfold triggerRequestFromUnified
  dsimp only
  rw [requiredDecimal_render lossless fits.triggerPrice, requiredDecimal_render lossless fits.qty]
  obtain ⟨clientOrderId, symbol, isBuy, triggerPrice, qty, reduceOnly⟩ := request
  cases isBuy <;> rfl

end RoundTrip

section Calls

variable {σ : Type}

/-- A call of a `TriggerOrderGateway`; `now` is what the venue's clock shows. -/
inductive TriggerCall where
  | create (now : Int) (exchange : ExchangeId) (request : TriggerOrderRequest)
  | cancel (exchange : ExchangeId) (orderId symbol : String)
  | list (exchange : ExchangeId) (symbols : List String)

inductive TriggerReply where
  | order (order : TriggerOrder)
  | orders (orders : List TriggerOrder)
  deriving DecidableEq

def TriggerPort.serve (port : TriggerPort σ) : Service.Port TriggerCall TriggerReply PortError σ
  | .create now exchange request, venue =>
    let served := port.create now exchange request venue
    (served.1.map .order, served.2)
  | .cancel exchange orderId symbol, venue =>
    let served := port.cancel exchange orderId symbol venue
    (served.1.map .order, served.2)
  | .list exchange symbols, venue => ((port.list exchange symbols venue).map .orders, venue)

/-- What `TriggerOrderGateway` is to do in the states that a venue keeps to. -/
def triggerTerms (ops : DecimalOps) (keeps : σ → Prop) : Service.Terms TriggerCall TriggerReply σ where
  asks
    | .create now _ request => Instant now ∧ request.Fits
    | _ => True
  proper
    | .create _ _ request => validateTriggerRequest ops request = .ok ()
    | .cancel _ orderId _ => isBlank orderId = false
    | .list .. => True
  keeps := keeps
  answers
    | .create .., .order order => order.Fits ∧ order.id ≠ ""
    | .cancel .., .order order => order.Fits
    | .list .., .orders orders => ∀ order ∈ orders, order.Fits
    | _, _ => False

variable {ops : DecimalOps} {connect : Connect} {proxy : WorkerProxy} {port : TriggerPort σ}

theorem remote_create (lossless : ops.Lossless) {request : TriggerOrderRequest}
    (valid : validateTriggerRequest ops request = .ok ()) (fits : request.Fits) (now : Int)
    (exchange : ExchangeId) (venue : σ) :
    (remoteTriggers ops connect proxy port).create now exchange request venue =
      match port.create now exchange request venue with
      | (.error error, after) => (.error (hop connect error), after)
      | (.ok order, after) =>
        if order.id = "" then (.error (.transport "venue returned a trigger order with no id"), after)
        else (triggerOrderToPort ops (triggerOrderToUnified ops order), after) := by
  simp only [remoteTriggers, WorkerProxy.create, valid, proxy.operator,
    triggerRequestFromUnified_written lossless fits, resolvedExchange, Option.getD_some]
  rcases port.create now exchange request venue with ⟨error | order, after⟩ <;> rfl

theorem remote_cancel {orderId : String} (named : isBlank orderId = false) (exchange : ExchangeId)
    (symbol : String) (venue : σ) :
    (remoteTriggers ops connect proxy port).cancel exchange orderId symbol venue =
      match port.cancel exchange orderId symbol venue with
      | (.error error, after) => (.error (hop connect error), after)
      | (.ok order, after) => (triggerOrderToPort ops (triggerOrderToUnified ops order), after) := by
  simp only [remoteTriggers, WorkerProxy.cancel, named, resolvedExchange, Option.getD_some]
  rcases port.cancel exchange orderId symbol venue with ⟨error | order, after⟩ <;> rfl

theorem mapM_triggerOrderToPort (lossless : ops.Lossless) {orders : List TriggerOrder}
    (fits : ∀ order ∈ orders, order.Fits) :
    (orders.map (triggerOrderToUnified ops)).mapM (triggerOrderToPort ops) = .ok orders := by
  induction orders with
  | nil => rfl
  | cons order rest ih =>
    obtain ⟨now, later⟩ := List.forall_mem_cons.mp fits
    rw [List.map_cons, List.mapM_cons, triggerOrderToPort_unified lossless now, ih later]
    rfl

/-- One more worker in front of a venue that keeps to the terms changes only the texts of errors. -/
theorem remote_agrees (lossless : ops.Lossless) {keeps : σ → Prop} (proxy : WorkerProxy)
    (port : TriggerPort σ) (honours : Service.Honours (triggerTerms ops keeps) port.serve) :
    Service.Agree (triggerTerms ops keeps) (remoteTriggers ops connect proxy port).serve port.serve := by
  intro call venue asked kept
  cases call with
  | create now exchange request =>
    cases valid : validateTriggerRequest ops request with
    | error error =>
      have refused := honours.refuses (.create now exchange request) venue asked kept
        (fun proper => by cases valid.symm.trans proper)
      have early : (remoteTriggers ops connect proxy port).create now exchange request venue =
          (.error error, venue) := by simp only [remoteTriggers, valid]
      rw [Service.outcome, Service.outcome, refused.1, refused.2, TriggerPort.serve, early]
      rfl
    | ok =>
      have answered := fun reply => honours.answers (.create now exchange request) venue reply asked kept
      simp only [TriggerPort.serve] at answered ⊢
      rw [remote_create lossless valid asked.2]
      rcases served : port.create now exchange request venue with ⟨error | order, after⟩
      · rfl
      · rw [served] at answered
        obtain ⟨fits, named⟩ := answered _ rfl
        simp only [if_neg named, triggerOrderToPort_unified lossless fits]
  | cancel exchange orderId symbol =>
    cases blank : isBlank orderId with
    | true =>
      have refused := honours.refuses (.cancel exchange orderId symbol) venue asked kept
        (fun proper => by cases blank.symm.trans proper)
      have early : (remoteTriggers ops connect proxy port).cancel exchange orderId symbol venue =
          (.error (.missingField "order_id"), venue) := by simp only [remoteTriggers, blank, if_true]
      rw [Service.outcome, Service.outcome, refused.1, refused.2, TriggerPort.serve, early]
      rfl
    | false =>
      have answered := fun reply => honours.answers (.cancel exchange orderId symbol) venue reply asked kept
      simp only [TriggerPort.serve] at answered ⊢
      rw [remote_cancel blank]
      rcases served : port.cancel exchange orderId symbol venue with ⟨error | order, after⟩
      · rfl
      · rw [served] at answered
        simp only [triggerOrderToPort_unified lossless (answered _ rfl)]
  | list exchange symbols =>
    have answered := fun reply => honours.answers (.list exchange symbols) venue reply asked kept
    simp only [TriggerPort.serve, remoteTriggers, WorkerProxy.list, resolvedExchange, Option.getD_some]
      at answered ⊢
    cases served : port.list exchange symbols venue with
    | error error => rfl
    | ok orders =>
      rw [served] at answered
      simp only [mapM_triggerOrderToPort lossless (answered _ rfl)]

theorem chain_agrees (lossless : ops.Lossless) {keeps : σ → Prop} {port : TriggerPort σ}
    (honours : Service.Honours (triggerTerms ops keeps) port.serve) (workers : List WorkerProxy) :
    Service.Agree (triggerTerms ops keeps) (chain ops connect workers port).serve port.serve :=
  Service.agree_foldr TriggerPort.serve (remoteTriggers ops connect) (remote_agrees lossless) honours workers

/-- Any number of workers in front of a venue that keeps to the terms is as good as the venue: over any
run of calls the same calls succeed, with the same answers, and the venue is left the same. -/
theorem chain_is_transparent (lossless : ops.Lossless) {keeps : σ → Prop} {port : TriggerPort σ}
    (honours : Service.Honours (triggerTerms ops keeps) port.serve) (workers : List WorkerProxy)
    {calls : List TriggerCall} (asked : ∀ call ∈ calls, (triggerTerms ops keeps).asks call)
    {venue : σ} (kept : keeps venue) :
    (Service.run (chain ops connect workers port).serve calls venue).1.map Except.toOption =
        (Service.run port.serve calls venue).1.map Except.toOption ∧
      (Service.run (chain ops connect workers port).serve calls venue).2 =
        (Service.run port.serve calls venue).2 := by
  exact (chain_agrees lossless honours workers).run honours asked kept

end Calls

end LongTrader.Relay
