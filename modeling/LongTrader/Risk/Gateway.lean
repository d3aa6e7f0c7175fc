import LongTrader.Interleave.History
import LongTrader.Risk.Gate

/-! The gated trading gateway. A submission reads the venue's book, takes its decision
and places its legs in separate steps, and no lock is held across them. -/

namespace LongTrader.Risk

open Interleave

/-- Decode a list, up to its first failure. -/
def collect {α β ε : Type} (decode : α → Except ε β) : List α → Except ε (List β)
  | [] => .ok []
  | item :: rest => match decode item with
    | .error error => .error error
    | .ok value => match collect decode rest with
      | .error error => .error error
      | .ok values => .ok (value :: values)

/-- Decode the text of a present decimal. -/
def decimalOf (ops : DecimalOps) (text : String) : Except PortError Decimal :=
  (commonToDecimal ops text).mapError PortError.decimal

/-- The submission shape of one order request. -/
def intentOf (ops : DecimalOps) (order : OrderRequest) : Except PortError OrderIntent :=
  match order.amount with
  | none => .error (.missingField "order.amount")
  | some amount => match decimalOf ops amount with
    | .error error => .error error
    | .ok qty => match order.price with
      | none => .ok ⟨order.symbol, order.side = .buy, qty, none⟩
      | some price => match decimalOf ops price with
        | .error error => .error error
        | .ok price => .ok ⟨order.symbol, order.side = .buy, qty, some price⟩

/-- The exposure shape of one resting order. -/
def restingOf (ops : DecimalOps) (order : Order) : Except PortError RestingOrder :=
  match order.remaining <|> order.amount with
  | none => .error (.missingField "order.remaining")
  | some text => match decimalOf ops text with
    | .error error => .error error
    | .ok qty => .ok ⟨order.symbol, order.side = .buy, qty⟩

/-- The order that comes to rest for a leg. -/
def restingFor (leg : OrderRequest) (id : String) : Order :=
  ⟨id, leg.clientOrderId, leg.symbol, leg.side, leg.amount, leg.amount⟩

/-- The gate's bucket, the venue's books and the clock. -/
structure Desk where
  bucket : Bucket
  book : ExchangeId → List Order
  now : Nat

inductive Op where
  | fetchOpenOrders (exchange : ExchangeId)
  | instantNow
  | admitIntents (intents : List OrderIntent) (resting : Option (List RestingOrder)) (now : Nat)
  | place (exchange : ExchangeId) (leg : OrderRequest)
  | createReply (request : CreateOrderRequest)
  | batchReply (request : CreateOrdersRequest)
  | venueMove (exchange : ExchangeId) (orderId : String) (left : Option String)
  | advanceClock (elapsed : Nat)
  deriving DecidableEq

@[reducible] def Op.Ans : Op → Type
  | .fetchOpenOrders _ => Except PortError (List Order)
  | .instantNow => Nat
  | .admitIntents _ _ _ => Option (Except RiskViolation Unit)
  | .place _ _ => Option String
  | .createReply _ => Except PortError Order
  | .batchReply _ => Except PortError (List Order)
  | .venueMove _ _ _ | .advanceClock _ => Unit

/-- What the venue decides: in which order it lists its book, whether a leg comes to
rest and under which id, and what it tells the caller. -/
inductive Choice where
  | none
  | listing (answer : Except PortError (List Order))
  | rests (id : Option String)
  | reply (answer : Except PortError Order)
  | batch (answer : Except PortError (List Order))

/-- A fill or a cancel: `left` is what remains of the order, nothing if it is gone. -/
def moveOrder (orderId : String) (left : Option String) (book : List Order) : List Order :=
  match left with
  | none => book.filter fun order => order.id ≠ orderId
  | some text => book.map fun order =>
      if order.id = orderId then { order with remaining := some text } else order

def Desk.setBook (desk : Desk) (exchange : ExchangeId) (book : List Order) : Desk :=
  { desk with book := Function.update desk.book exchange book }

/-- The gate decides at once: its checks read nothing that is shared, and the bucket is
locked while it spends. -/
def Desk.exec (ops : DecimalOps) (limits : RiskLimits) (desk : Desk) (op : Op) (choice : Choice) :
    Option (op.Ans × Desk) :=
  match op with
  | .fetchOpenOrders exchange => match choice with
    | .listing (.error error) => some (.error error, desk)
    | .listing (.ok orders) =>
      if orders.isPerm (desk.book exchange) then some (.ok orders, desk) else none
    | _ => none
  | .instantNow => some (desk.now, desk)
  | .admitIntents intents resting now =>
    match Risk.admitIntents ops limits desk.bucket intents resting now with
    | none => some (none, desk)
    | some (answer, bucket) => some (some answer, { desk with bucket := bucket })
  | .place exchange leg => match choice with
    | .rests none => some (none, desk)
    | .rests (some id) =>
      some (some id, desk.setBook exchange (desk.book exchange ++ [restingFor leg id]))
    | _ => none
  | .createReply _ => match choice with
    | .reply answer => some (answer, desk)
    | _ => none
  | .batchReply _ => match choice with
    | .batch answer => some (answer, desk)
    | _ => none
  | .venueMove exchange orderId left =>
    some ((), desk.setBook exchange (moveOrder orderId left (desk.book exchange)))
  | .advanceClock elapsed => some ((), { desk with now := desk.now + elapsed })

abbrev sig : Signature := ⟨Op, Op.Ans⟩

/-- The gateway over its venue as a machine. -/
abbrev machine (ops : DecimalOps) (limits : RiskLimits) : Machine sig :=
  ⟨Desk, Choice, fun op choice desk => desk.exec ops limits op choice⟩

abbrev Task (Result : Type) := Proc sig Result

abbrev perform (op : Op) : Task op.Ans := @Proc.perform sig op

instance (op : Op) : Nonempty op.Ans := by
  cases op
  all_goals
    first
      | exact ⟨default⟩
      | exact ⟨.error (.transport "")⟩

section Gateway

variable (ops : DecimalOps) (limits : RiskLimits)

/-- The book as the gate measures it, read only when a configured limit needs it. -/
def readBook (exchange : ExchangeId) : Task (Except PortError (Option (List RestingOrder))) :=
  if limits.needsBook then do
    match ← perform (.fetchOpenOrders exchange) with
    | .error error => return .error error
    | .ok orders => return (collect (restingOf ops) orders).map some
  else return .ok none

/-- `RiskGateway::admit`; `none` is a panic of the gate's arithmetic. -/
def gatewayAdmit (intents : List OrderIntent) (exchange : ExchangeId) :
    Task (Option (Except PortError Unit)) := do
  match ← readBook ops limits exchange with
  | .error error => return some (.error error)
  | .ok resting =>
    let now ← perform .instantNow
    match ← perform (.admitIntents intents resting now) with
    | none => return none
    | some (.error violation) => return some (.error (.invalidArgument (violation.display ops)))
    | some (.ok ()) => return some (.ok ())

/-- The venue takes the legs of one call, each when its turn comes. -/
def placeLegs (exchange : ExchangeId) : List OrderRequest → Task Unit
  | [] => return ()
  | leg :: rest => do
    let _ ← perform (.place exchange leg)
    placeLegs exchange rest

/-- `RiskGateway::create_order`. -/
def createOrder (request : CreateOrderRequest) : Task (Option (Except PortError Order)) := do
  match request.order with
  | none => return some (.error (.missingField "order"))
  | some order => match intentOf ops order with
    | .error error => return some (.error error)
    | .ok intent =>
      let exchange := request.exchangeId.getD default
      match ← gatewayAdmit ops limits [intent] exchange with
      | none => return none
      | some (.error error) => return some (.error error)
      | some (.ok ()) =>
        placeLegs exchange [order]
        return some (← perform (.createReply request))

/-- `RiskGateway::batch_create_orders`. -/
def batchCreateOrders (request : CreateOrdersRequest) :
    Task (Option (Except PortError (List Order))) := do
  match collect (intentOf ops) request.orders with
  | .error error => return some (.error error)
  | .ok intents =>
    let exchange := request.exchangeId.getD default
    match ← gatewayAdmit ops limits intents exchange with
    | none => return none
    | some (.error error) => return some (.error error)
    | some (.ok ()) =>
      placeLegs exchange request.orders
      return some (← perform (.batchReply request))

/-- One gated submission, or a move of the environment: an order is filled or
cancelled, or time passes. -/
inductive Call where
  | createOrder (request : CreateOrderRequest)
  | batchCreateOrders (request : CreateOrdersRequest)
  | venueMove (exchange : ExchangeId) (orderId : String) (left : Option String)
  | timePasses (elapsed : Nat)

inductive Outcome where
  | ordered (answer : Option (Except PortError Order))
  | batched (answer : Option (Except PortError (List Order)))
  | moved

def Call.task : Call → Task Outcome
  | .createOrder request => .ordered <$> Risk.createOrder ops limits request
  | .batchCreateOrders request => .batched <$> Risk.batchCreateOrders ops limits request
  | .venueMove exchange orderId left =>
    (fun _ => .moved) <$> perform (.venueMove exchange orderId left)
  | .timePasses elapsed => (fun _ => .moved) <$> perform (.advanceClock elapsed)

/-- A pool of concurrent submissions over one venue. -/
def pool {ι : Type} (desk : Desk) (calls : ι → Call) : Config (machine ops limits) ι Outcome :=
  ⟨desk, fun task => (calls task).task ops limits⟩

end Gateway

end LongTrader.Risk
