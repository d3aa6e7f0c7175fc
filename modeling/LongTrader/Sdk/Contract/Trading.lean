import LongTrader.Sdk.Contract.Common

/-! The trading messages of the Go contract: orders, trades and positions, and the requests and
responses of the trading service. -/

namespace LongTrader.Sdk.Contract

/-- `contract.OrderRequest`. -/
structure OrderRequest where
  ClientOrderID : Bytes := []
  Symbol : Bytes := []
  Type' : OrderType := 0
  Side : OrderSide := 0
  Amount : Decimal := {}
  Price : Decimal := {}
  TriggerPrice : Decimal := {}
  TimeInForce : TimeInForce := 0
  PostOnly : Bool := false
  ReduceOnly : Bool := false
  Params : StringMap := .empty
  deriving DecidableEq

def OrderRequest.MarshalTo (m : OrderRequest) : List Write :=
  [Write.string 1 m.ClientOrderID, .string 2 m.Symbol, .int32 3 m.Type', .int32 4 m.Side,
   .value 5 m.Amount, .value 6 m.Price, .value 7 m.TriggerPrice, .int32 8 m.TimeInForce,
   .bool 9 m.PostOnly, .bool 10 m.ReduceOnly] ++
  encodeMap 11 m.Params

def OrderRequest.cases : List (Int64 × Handler OrderRequest) :=
  [(1, assign Field.AsString fun m v => { m with ClientOrderID := v }),
   (2, assign Field.AsString fun m v => { m with Symbol := v }),
   (3, assign Field.AsInt32 fun m v => { m with Type' := v }),
   (4, assign Field.AsInt32 fun m v => { m with Side := v }),
   (5, decodeSub fun m v => { m with Amount := v }),
   (6, decodeSub fun m v => { m with Price := v }),
   (7, decodeSub fun m v => { m with TriggerPrice := v }),
   (8, assign Field.AsInt32 fun m v => { m with TimeInForce := v }),
   (9, assign Field.AsBool fun m v => { m with PostOnly := v }),
   (10, assign Field.AsBool fun m v => { m with ReduceOnly := v }),
   (11, decodeMapEntry 11 fun update m => { m with Params := update m.Params })]

instance : Message OrderRequest := ⟨OrderRequest.MarshalTo, unmarshal OrderRequest.cases {}⟩

instance : Faithful OrderRequest where
  returns m :=
    Reads.scan_eq (by decide) <| .append
      (.cons (.string rfl rfl) <| .cons (.string rfl rfl) <| .cons (.int32 rfl rfl) <|
       .cons (.int32 rfl rfl) <| .cons (.value rfl) <| .cons (.value rfl) <| .cons (.value rfl) <|
       .cons (.int32 rfl rfl) <| .cons (.bool rfl rfl) <| .cons (.bool rfl rfl) .nil)
      (.map rfl rfl (fun _ _ => rfl) rfl)

/-- `contract.Order`. -/
structure Order where
  ID : Bytes := []
  ClientOrderID : Bytes := []
  Symbol : Bytes := []
  Type' : OrderType := 0
  Side : OrderSide := 0
  Status : OrderStatus := 0
  Amount : Decimal := {}
  Price : Decimal := {}
  Filled : Decimal := {}
  Remaining : Decimal := {}
  Cost : Decimal := {}
  Average : Decimal := {}
  Fee : Decimal := {}
  FeeCurrency : Bytes := []
  TimeInForce : TimeInForce := 0
  Timestamp : Option Timestamp := none
  LastTradeTimestamp : Option Contract.Timestamp := none
  PostOnly : Bool := false
  ReduceOnly : Bool := false
  Info : StringMap := .empty
  CreatedAt : Option Contract.Timestamp := none
  UpdatedAt : Option Contract.Timestamp := none
  TakeProfit : Option Decimal := none
  StopLoss : Option Decimal := none

def Order.MarshalTo (m : Order) : List Write :=
  [Write.string 1 m.ID, .string 2 m.ClientOrderID, .string 3 m.Symbol, .int32 4 m.Type', .int32 5 m.Side,
   .int32 6 m.Status, .value 7 m.Amount, .value 8 m.Price, .value 9 m.Filled,
   .value 10 m.Remaining, .value 11 m.Cost, .value 12 m.Average, .value 13 m.Fee,
   .string 14 m.FeeCurrency, .int32 15 m.TimeInForce, .pointer 16 m.Timestamp,
   .pointer 17 m.LastTradeTimestamp, .bool 18 m.PostOnly, .bool 19 m.ReduceOnly] ++
  encodeMap 20 m.Info ++
  [Write.pointer 22 m.CreatedAt, .pointer 23 m.UpdatedAt, .pointer 24 m.TakeProfit,
   .pointer 25 m.StopLoss]

def Order.cases : List (Int64 × Handler Order) :=
  [(1, assign Field.AsString fun m v => { m with ID := v }),
   (2, assign Field.AsString fun m v => { m with ClientOrderID := v }),
   (3, assign Field.AsString fun m v => { m with Symbol := v }),
   (4, assign Field.AsInt32 fun m v => { m with Type' := v }),
   (5, assign Field.AsInt32 fun m v => { m with Side := v }),
   (6, assign Field.AsInt32 fun m v => { m with Status := v }),
   (7, decodeSub fun m v => { m with Amount := v }),
   (8, decodeSub fun m v => { m with Price := v }),
   (9, decodeSub fun m v => { m with Filled := v }),
   (10, decodeSub fun m v => { m with Remaining := v }),
   (11, decodeSub fun m v => { m with Cost := v }),
   (12, decodeSub fun m v => { m with Average := v }),
   (13, decodeSub fun m v => { m with Fee := v }),
   (14, assign Field.AsString fun m v => { m with FeeCurrency := v }),
   (15, assign Field.AsInt32 fun m v => { m with TimeInForce := v }),
   (16, decodeTime fun m v => { m with Timestamp := v }),
   (17, decodeTime fun m v => { m with LastTradeTimestamp := v }),
   (18, assign Field.AsBool fun m v => { m with PostOnly := v }),
   (19, assign Field.AsBool fun m v => { m with ReduceOnly := v }),
   (20, decodeMapEntry 20 fun update m => { m with Info := update m.Info }),
   (22, decodeTime fun m v => { m with CreatedAt := v }),
   (23, decodeTime fun m v => { m with UpdatedAt := v }),
   (24, decodeDecimal fun m v => { m with TakeProfit := v }),
   (25, decodeDecimal fun m v => { m with StopLoss := v })]

instance : Message Order := ⟨Order.MarshalTo, unmarshal Order.cases {}⟩

instance : Faithful Order where
  returns m :=
    Reads.scan_eq (by decide) <| .append (.append
      (.cons (.string rfl rfl) <| .cons (.string rfl rfl) <| .cons (.string rfl rfl) <|
       .cons (.int32 rfl rfl) <| .cons (.int32 rfl rfl) <| .cons (.int32 rfl rfl) <|
       .cons (.value rfl) <| .cons (.value rfl) <| .cons (.value rfl) <| .cons (.value rfl) <|
       .cons (.value rfl) <| .cons (.value rfl) <| .cons (.value rfl) <| .cons (.string rfl rfl) <|
       .cons (.int32 rfl rfl) <| .cons (.pointer rfl rfl) <| .cons (.pointer rfl rfl) <|
       .cons (.bool rfl rfl) <| .cons (.bool rfl rfl) .nil)
      (.map rfl rfl (fun _ _ => rfl) rfl))
      (.cons (.pointer rfl rfl) <| .cons (.pointer rfl rfl) <| .cons (.pointer rfl rfl) <|
       .cons (.pointer rfl rfl) .nil)

/-- `contract.Account`. -/
structure Account where
  Balance : Decimal := {}
  Equity : Decimal := {}
  MarginUsed : Decimal := {}
  FreeMargin : Decimal := {}
  MarginFrozen : Decimal := {}

def Account.MarshalTo (m : Account) : List Write :=
  [.value 1 m.Balance, .value 2 m.Equity, .value 3 m.MarginUsed, .value 4 m.FreeMargin,
   .value 5 m.MarginFrozen]

def Account.cases : List (Int64 × Handler Account) :=
  [(1, decodeSub fun m v => { m with Balance := v }),
   (2, decodeSub fun m v => { m with Equity := v }),
   (3, decodeSub fun m v => { m with MarginUsed := v }),
   (4, decodeSub fun m v => { m with FreeMargin := v }),
   (5, decodeSub fun m v => { m with MarginFrozen := v })]

instance : Message Account := ⟨Account.MarshalTo, unmarshal Account.cases {}⟩

instance : Faithful Account where
  returns m := Reads.scan_eq (by decide) <|
    .cons (.value rfl) <| .cons (.value rfl) <| .cons (.value rfl) <| .cons (.value rfl) <|
    .cons (.value rfl) .nil

/-- `contract.Trade`. -/
structure Trade where
  ID : Bytes := []
  OrderID : Bytes := []
  Symbol : Bytes := []
  Side : OrderSide := 0
  Price : Decimal := {}
  Amount : Decimal := {}
  Cost : Decimal := {}
  Fee : Decimal := {}
  FeeCurrency : Bytes := []
  Timestamp : Option Timestamp := none
  Maker : Bool := false

def Trade.MarshalTo (m : Trade) : List Write :=
  [.string 1 m.ID, .string 2 m.OrderID, .string 3 m.Symbol, .int32 4 m.Side, .value 5 m.Price,
   .value 6 m.Amount, .value 7 m.Cost, .value 8 m.Fee, .string 9 m.FeeCurrency,
   .pointer 10 m.Timestamp, .bool 11 m.Maker]

def Trade.cases : List (Int64 × Handler Trade) :=
  [(1, assign Field.AsString fun m v => { m with ID := v }),
   (2, assign Field.AsString fun m v => { m with OrderID := v }),
   (3, assign Field.AsString fun m v => { m with Symbol := v }),
   (4, assign Field.AsInt32 fun m v => { m with Side := v }),
   (5, decodeSub fun m v => { m with Price := v }),
   (6, decodeSub fun m v => { m with Amount := v }),
   (7, decodeSub fun m v => { m with Cost := v }),
   (8, decodeSub fun m v => { m with Fee := v }),
   (9, assign Field.AsString fun m v => { m with FeeCurrency := v }),
   (10, decodeTime fun m v => { m with Timestamp := v }),
   (11, assign Field.AsBool fun m v => { m with Maker := v })]

instance : Message Trade := ⟨Trade.MarshalTo, unmarshal Trade.cases {}⟩

instance : Faithful Trade where
  returns m := Reads.scan_eq (by decide) <|
    .cons (.string rfl rfl) <| .cons (.string rfl rfl) <| .cons (.string rfl rfl) <|
    .cons (.int32 rfl rfl) <| .cons (.value rfl) <| .cons (.value rfl) <| .cons (.value rfl) <|
    .cons (.value rfl) <| .cons (.string rfl rfl) <| .cons (.pointer rfl rfl) <|
    .cons (.bool rfl rfl) .nil

/-- `contract.Position`. -/
structure Position where
  ID : Bytes := []
  Symbol : Bytes := []
  Contracts : Decimal := {}
  ContractSize : Decimal := {}
  Side : OrderSide := 0
  EntryPrice : Decimal := {}
  MarkPrice : Decimal := {}
  UnrealizedPnL : Decimal := {}
  OrderID : Option Bytes := none
  CurrentPrice : Decimal := {}
  Timestamp : Option Timestamp := none
  TakeProfit : Option Decimal := none
  StopLoss : Option Decimal := none
  OpenedAt : Option Contract.Timestamp := none

def Position.MarshalTo (m : Position) : List Write :=
  [.string 1 m.ID, .string 2 m.Symbol, .value 3 m.Contracts, .value 4 m.ContractSize,
   .int32 5 m.Side, .value 6 m.EntryPrice, .value 7 m.MarkPrice, .value 8 m.UnrealizedPnL,
   .optString 9 m.OrderID, .value 10 m.CurrentPrice, .pointer 11 m.Timestamp,
   .pointer 12 m.TakeProfit, .pointer 13 m.StopLoss, .pointer 17 m.OpenedAt]

def Position.cases : List (Int64 × Handler Position) :=
  [(1, assign Field.AsString fun m v => { m with ID := v }),
   (2, assign Field.AsString fun m v => { m with Symbol := v }),
   (3, decodeSub fun m v => { m with Contracts := v }),
   (4, decodeSub fun m v => { m with ContractSize := v }),
   (5, assign Field.AsInt32 fun m v => { m with Side := v }),
   (6, decodeSub fun m v => { m with EntryPrice := v }),
   (7, decodeSub fun m v => { m with MarkPrice := v }),
   (8, decodeSub fun m v => { m with UnrealizedPnL := v }),
   (9, assignOptString fun m v => { m with OrderID := v }),
   (10, decodeSub fun m v => { m with CurrentPrice := v }),
   (11, decodeTime fun m v => { m with Timestamp := v }),
   (12, decodeDecimal fun m v => { m with TakeProfit := v }),
   (13, decodeDecimal fun m v => { m with StopLoss := v }),
   (17, decodeTime fun m v => { m with OpenedAt := v })]

instance : Message Position := ⟨Position.MarshalTo, unmarshal Position.cases {}⟩

instance : Faithful Position where
  returns m := Reads.scan_eq (by decide) <|
    .cons (.string rfl rfl) <| .cons (.string rfl rfl) <| .cons (.value rfl) <|
    .cons (.value rfl) <| .cons (.int32 rfl rfl) <| .cons (.value rfl) <| .cons (.value rfl) <|
    .cons (.value rfl) <| .cons (.optString rfl rfl) <| .cons (.value rfl) <|
    .cons (.pointer rfl rfl) <| .cons (.pointer rfl rfl) <| .cons (.pointer rfl rfl) <|
    .cons (.pointer rfl rfl) .nil

/-- `contract.ClosedPosition`. -/
structure ClosedPosition where
  ID : Bytes := []
  OrderID : Bytes := []
  Symbol : Bytes := []
  Side : PositionSide := 0
  Quantity : Decimal := {}
  EntryPrice : Decimal := {}
  ExitPrice : Decimal := {}
  RealizedPnL : Decimal := {}
  OpenedAt : Option Timestamp := none
  ClosedAt : Option Timestamp := none
  CloseReason : CloseReason := 0

def ClosedPosition.MarshalTo (m : ClosedPosition) : List Write :=
  [.string 1 m.ID, .string 2 m.OrderID, .string 3 m.Symbol, .int32 4 m.Side, .value 5 m.Quantity,
   .value 6 m.EntryPrice, .value 7 m.ExitPrice, .value 8 m.RealizedPnL, .pointer 9 m.OpenedAt,
   .pointer 10 m.ClosedAt, .int32 11 m.CloseReason]

def ClosedPosition.cases : List (Int64 × Handler ClosedPosition) :=
  [(1, assign Field.AsString fun m v => { m with ID := v }),
   (2, assign Field.AsString fun m v => { m with OrderID := v }),
   (3, assign Field.AsString fun m v => { m with Symbol := v }),
   (4, assign Field.AsInt32 fun m v => { m with Side := v }),
   (5, decodeSub fun m v => { m with Quantity := v }),
   (6, decodeSub fun m v => { m with EntryPrice := v }),
   (7, decodeSub fun m v => { m with ExitPrice := v }),
   (8, decodeSub fun m v => { m with RealizedPnL := v }),
   (9, decodeTime fun m v => { m with OpenedAt := v }),
   (10, decodeTime fun m v => { m with ClosedAt := v }),
   (11, assign Field.AsInt32 fun m v => { m with CloseReason := v })]

instance : Message ClosedPosition := ⟨ClosedPosition.MarshalTo, unmarshal ClosedPosition.cases {}⟩

instance : Faithful ClosedPosition where
  returns m := Reads.scan_eq (by decide) <|
    .cons (.string rfl rfl) <| .cons (.string rfl rfl) <| .cons (.string rfl rfl) <|
    .cons (.int32 rfl rfl) <| .cons (.value rfl) <| .cons (.value rfl) <| .cons (.value rfl) <|
    .cons (.value rfl) <| .cons (.pointer rfl rfl) <| .cons (.pointer rfl rfl) <|
    .cons (.int32 rfl rfl) .nil

/-- `contract.CreateOrderRequest`. -/
structure CreateOrderRequest where
  ExchangeID : Option ExchangeId := none
  Order : Option OrderRequest := none
  SessionID : Bytes := []

def CreateOrderRequest.MarshalTo (m : CreateOrderRequest) : List Write :=
  [.pointer 1 m.ExchangeID, .pointer 2 m.Order, .string 3 m.SessionID]

def CreateOrderRequest.cases : List (Int64 × Handler CreateOrderRequest) :=
  [(1, decodePointer fun m v => { m with ExchangeID := v }),
   (2, decodePointer fun m v => { m with Order := v }),
   (3, assign Field.AsString fun m v => { m with SessionID := v })]

instance : Message CreateOrderRequest :=
  ⟨CreateOrderRequest.MarshalTo, unmarshal CreateOrderRequest.cases {}⟩

instance : Faithful CreateOrderRequest where
  returns m := Reads.scan_eq (by decide) <|
    .cons (.pointer rfl rfl) <| .cons (.pointer rfl rfl) <| .cons (.string rfl rfl) .nil

/-- `contract.CreateOrderResponse`. -/
structure CreateOrderResponse where
  Order : Option Order := none

def CreateOrderResponse.MarshalTo (m : CreateOrderResponse) : List Write := [.pointer 1 m.Order]

def CreateOrderResponse.cases : List (Int64 × Handler CreateOrderResponse) :=
  [(1, decodePointer fun m v => { m with Order := v })]

instance : Message CreateOrderResponse :=
  ⟨CreateOrderResponse.MarshalTo, unmarshal CreateOrderResponse.cases {}⟩

instance : Faithful CreateOrderResponse where
  returns m := Reads.scan_eq (by decide) (.cons (.pointer rfl rfl) .nil)

/-- `contract.CreateOrdersRequest`. -/
structure CreateOrdersRequest where
  ExchangeID : Option ExchangeId := none
  Orders : List (Option OrderRequest) := []
  SessionID : Bytes := []

def CreateOrdersRequest.MarshalTo (m : CreateOrdersRequest) : List Write :=
  [Write.pointer 1 m.ExchangeID] ++
  m.Orders.map (Write.pointer 2) ++
  [Write.string 3 m.SessionID]

def CreateOrdersRequest.cases : List (Int64 × Handler CreateOrdersRequest) :=
  [(1, decodePointer fun m v => { m with ExchangeID := v }),
   (2, appendMessage fun update m => { m with Orders := update m.Orders }),
   (3, assign Field.AsString fun m v => { m with SessionID := v })]

instance : Message CreateOrdersRequest :=
  ⟨CreateOrdersRequest.MarshalTo, unmarshal CreateOrdersRequest.cases {}⟩

/-- What is left of the message once it has been decoded. -/
def CreateOrdersRequest.kept (m : CreateOrdersRequest) : CreateOrdersRequest :=
  { m with Orders := m.Orders.filter Option.isSome }

theorem CreateOrdersRequest.returns (m : CreateOrdersRequest) : Returns m m.kept :=
  Reads.scan_eq (by decide) <| .append (.append
    (.cons (.pointer rfl rfl) .nil)
    (.messages rfl rfl (fun _ _ => rfl) rfl))
    (.cons (.string rfl rfl) .nil)

def CreateOrdersRequest.Intact (m : CreateOrdersRequest) : Prop := none ∉ m.Orders

theorem CreateOrdersRequest.kept_eq_iff (m : CreateOrdersRequest) : m.kept = m ↔ m.Intact := by
  cases m
  simp only [kept, Intact, mk.injEq, true_and, and_true, filter_isSome_eq_iff]

/-- `contract.CreateOrdersResponse`. -/
structure CreateOrdersResponse where
  Orders : List (Option Order) := []

def CreateOrdersResponse.MarshalTo (m : CreateOrdersResponse) : List Write :=
  m.Orders.map (.pointer 1)

def CreateOrdersResponse.cases : List (Int64 × Handler CreateOrdersResponse) :=
  [(1, appendMessage fun update m => { m with Orders := update m.Orders })]

instance : Message CreateOrdersResponse :=
  ⟨CreateOrdersResponse.MarshalTo, unmarshal CreateOrdersResponse.cases {}⟩

/-- What is left of the message once it has been decoded. -/
def CreateOrdersResponse.kept (m : CreateOrdersResponse) : CreateOrdersResponse :=
  { m with Orders := m.Orders.filter Option.isSome }

theorem CreateOrdersResponse.returns (m : CreateOrdersResponse) : Returns m m.kept :=
  Reads.scan_eq (by decide) (.messages rfl rfl (fun _ _ => rfl) rfl)

def CreateOrdersResponse.Intact (m : CreateOrdersResponse) : Prop := none ∉ m.Orders

theorem CreateOrdersResponse.kept_eq_iff (m : CreateOrdersResponse) : m.kept = m ↔ m.Intact := by
  cases m
  simp only [kept, Intact, mk.injEq, filter_isSome_eq_iff]

/-- `contract.CancelOrderRequest`. -/
structure CancelOrderRequest where
  ExchangeID : Option ExchangeId := none
  OrderID : Bytes := []
  Symbol : Bytes := []

def CancelOrderRequest.MarshalTo (m : CancelOrderRequest) : List Write :=
  [.pointer 1 m.ExchangeID, .string 2 m.OrderID, .string 3 m.Symbol]

def CancelOrderRequest.cases : List (Int64 × Handler CancelOrderRequest) :=
  [(1, decodePointer fun m v => { m with ExchangeID := v }),
   (2, assign Field.AsString fun m v => { m with OrderID := v }),
   (3, assign Field.AsString fun m v => { m with Symbol := v })]

instance : Message CancelOrderRequest :=
  ⟨CancelOrderRequest.MarshalTo, unmarshal CancelOrderRequest.cases {}⟩

instance : Faithful CancelOrderRequest where
  returns m := Reads.scan_eq (by decide) <|
    .cons (.pointer rfl rfl) <| .cons (.string rfl rfl) <| .cons (.string rfl rfl) .nil

/-- `contract.CancelOrderResponse`. -/
structure CancelOrderResponse where
  Order : Option Order := none

def CancelOrderResponse.MarshalTo (m : CancelOrderResponse) : List Write := [.pointer 1 m.Order]

def CancelOrderResponse.cases : List (Int64 × Handler CancelOrderResponse) :=
  [(1, decodePointer fun m v => { m with Order := v })]

instance : Message CancelOrderResponse :=
  ⟨CancelOrderResponse.MarshalTo, unmarshal CancelOrderResponse.cases {}⟩

instance : Faithful CancelOrderResponse where
  returns m := Reads.scan_eq (by decide) (.cons (.pointer rfl rfl) .nil)

/-- `contract.CancelAllOrdersRequest`. -/
structure CancelAllOrdersRequest where
  ExchangeID : Option ExchangeId := none
  Symbol : Bytes := []

def CancelAllOrdersRequest.MarshalTo (m : CancelAllOrdersRequest) : List Write :=
  [.pointer 1 m.ExchangeID, .string 2 m.Symbol]

def CancelAllOrdersRequest.cases : List (Int64 × Handler CancelAllOrdersRequest) :=
  [(1, decodePointer fun m v => { m with ExchangeID := v }),
   (2, assign Field.AsString fun m v => { m with Symbol := v })]

instance : Message CancelAllOrdersRequest :=
  ⟨CancelAllOrdersRequest.MarshalTo, unmarshal CancelAllOrdersRequest.cases {}⟩

instance : Faithful CancelAllOrdersRequest where
  returns m := Reads.scan_eq (by decide) (.cons (.pointer rfl rfl) <| .cons (.string rfl rfl) .nil)

/-- `contract.CancelAllOrdersResponse`. -/
structure CancelAllOrdersResponse where
  Orders : List (Option Order) := []

def CancelAllOrdersResponse.MarshalTo (m : CancelAllOrdersResponse) : List Write :=
  m.Orders.map (.pointer 1)

def CancelAllOrdersResponse.cases : List (Int64 × Handler CancelAllOrdersResponse) :=
  [(1, appendMessage fun update m => { m with Orders := update m.Orders })]

instance : Message CancelAllOrdersResponse :=
  ⟨CancelAllOrdersResponse.MarshalTo, unmarshal CancelAllOrdersResponse.cases {}⟩

/-- What is left of the message once it has been decoded. -/
def CancelAllOrdersResponse.kept (m : CancelAllOrdersResponse) : CancelAllOrdersResponse :=
  { m with Orders := m.Orders.filter Option.isSome }

theorem CancelAllOrdersResponse.returns (m : CancelAllOrdersResponse) : Returns m m.kept :=
  Reads.scan_eq (by decide) (.messages rfl rfl (fun _ _ => rfl) rfl)

def CancelAllOrdersResponse.Intact (m : CancelAllOrdersResponse) : Prop := none ∉ m.Orders

theorem CancelAllOrdersResponse.kept_eq_iff (m : CancelAllOrdersResponse) : m.kept = m ↔ m.Intact := by
  cases m
  simp only [kept, Intact, mk.injEq, filter_isSome_eq_iff]

/-- `contract.FetchOpenOrdersRequest`. -/
structure FetchOpenOrdersRequest where
  ExchangeID : Option ExchangeId := none
  Symbol : Bytes := []
  Pagination : Option Pagination := none

def FetchOpenOrdersRequest.MarshalTo (m : FetchOpenOrdersRequest) : List Write :=
  [.pointer 1 m.ExchangeID, .string 2 m.Symbol, .pointer 3 m.Pagination]

def FetchOpenOrdersRequest.cases : List (Int64 × Handler FetchOpenOrdersRequest) :=
  [(1, decodePointer fun m v => { m with ExchangeID := v }),
   (2, assign Field.AsString fun m v => { m with Symbol := v }),
   (3, decodePointer fun m v => { m with Pagination := v })]

instance : Message FetchOpenOrdersRequest :=
  ⟨FetchOpenOrdersRequest.MarshalTo, unmarshal FetchOpenOrdersRequest.cases {}⟩

instance : Faithful FetchOpenOrdersRequest where
  returns m := Reads.scan_eq (by decide) <|
    .cons (.pointer rfl rfl) <| .cons (.string rfl rfl) <| .cons (.pointer rfl rfl) .nil

/-- `contract.FetchOpenOrdersResponse`. -/
structure FetchOpenOrdersResponse where
  Orders : List (Option Order) := []
  Page : Option Page := none

def FetchOpenOrdersResponse.MarshalTo (m : FetchOpenOrdersResponse) : List Write :=
  m.Orders.map (Write.pointer 1) ++
  [Write.pointer 2 m.Page]

def FetchOpenOrdersResponse.cases : List (Int64 × Handler FetchOpenOrdersResponse) :=
  [(1, appendMessage fun update m => { m with Orders := update m.Orders }),
   (2, decodePointer fun m v => { m with Page := v })]

instance : Message FetchOpenOrdersResponse :=
  ⟨FetchOpenOrdersResponse.MarshalTo, unmarshal FetchOpenOrdersResponse.cases {}⟩

/-- What is left of the message once it has been decoded. -/
def FetchOpenOrdersResponse.kept (m : FetchOpenOrdersResponse) : FetchOpenOrdersResponse :=
  { m with Orders := m.Orders.filter Option.isSome }

theorem FetchOpenOrdersResponse.returns (m : FetchOpenOrdersResponse) : Returns m m.kept :=
  Reads.scan_eq (by decide) <| .append
    (.messages rfl rfl (fun _ _ => rfl) rfl)
    (.cons (.pointer rfl rfl) .nil)

def FetchOpenOrdersResponse.Intact (m : FetchOpenOrdersResponse) : Prop := none ∉ m.Orders

theorem FetchOpenOrdersResponse.kept_eq_iff (m : FetchOpenOrdersResponse) : m.kept = m ↔ m.Intact := by
  cases m
  simp only [kept, Intact, mk.injEq, and_true, filter_isSome_eq_iff]

/-- `contract.GetAccountRequest`. -/
structure GetAccountRequest where
  ExchangeID : Option ExchangeId := none

def GetAccountRequest.MarshalTo (m : GetAccountRequest) : List Write := [.pointer 1 m.ExchangeID]

def GetAccountRequest.cases : List (Int64 × Handler GetAccountRequest) :=
  [(1, decodePointer fun m v => { m with ExchangeID := v })]

instance : Message GetAccountRequest :=
  ⟨GetAccountRequest.MarshalTo, unmarshal GetAccountRequest.cases {}⟩

instance : Faithful GetAccountRequest where
  returns m := Reads.scan_eq (by decide) (.cons (.pointer rfl rfl) .nil)

/-- `contract.GetAccountResponse`. -/
structure GetAccountResponse where
  Account : Option Account := none

def GetAccountResponse.MarshalTo (m : GetAccountResponse) : List Write := [.pointer 1 m.Account]

def GetAccountResponse.cases : List (Int64 × Handler GetAccountResponse) :=
  [(1, decodePointer fun m v => { m with Account := v })]

instance : Message GetAccountResponse :=
  ⟨GetAccountResponse.MarshalTo, unmarshal GetAccountResponse.cases {}⟩

instance : Faithful GetAccountResponse where
  returns m := Reads.scan_eq (by decide) (.cons (.pointer rfl rfl) .nil)

/-- `contract.GetPositionsRequest`. -/
structure GetPositionsRequest where
  ExchangeID : Option ExchangeId := none
  Symbols : List Bytes := []

def GetPositionsRequest.MarshalTo (m : GetPositionsRequest) : List Write :=
  [Write.pointer 1 m.ExchangeID] ++
  m.Symbols.map (Write.string 2)

def GetPositionsRequest.cases : List (Int64 × Handler GetPositionsRequest) :=
  [(1, decodePointer fun m v => { m with ExchangeID := v }),
   (2, appendString fun update m => { m with Symbols := update m.Symbols })]

instance : Message GetPositionsRequest :=
  ⟨GetPositionsRequest.MarshalTo, unmarshal GetPositionsRequest.cases {}⟩

/-- What is left of the message once it has been decoded. -/
def GetPositionsRequest.kept (m : GetPositionsRequest) : GetPositionsRequest :=
  { m with Symbols := m.Symbols.filter (· ≠ []) }

theorem GetPositionsRequest.returns (m : GetPositionsRequest) : Returns m m.kept :=
  Reads.scan_eq (by decide) <| .append
    (.cons (.pointer rfl rfl) .nil)
    (.strings rfl rfl (fun _ _ => rfl) rfl)

def GetPositionsRequest.Intact (m : GetPositionsRequest) : Prop := [] ∉ m.Symbols

theorem GetPositionsRequest.kept_eq_iff (m : GetPositionsRequest) : m.kept = m ↔ m.Intact := by
  cases m
  simp only [kept, Intact, mk.injEq, true_and, filter_nonempty_eq_iff]

/-- `contract.GetPositionsResponse`. -/
structure GetPositionsResponse where
  Positions : List (Option Position) := []

def GetPositionsResponse.MarshalTo (m : GetPositionsResponse) : List Write :=
  m.Positions.map (.pointer 1)

def GetPositionsResponse.cases : List (Int64 × Handler GetPositionsResponse) :=
  [(1, appendMessage fun update m => { m with Positions := update m.Positions })]

instance : Message GetPositionsResponse :=
  ⟨GetPositionsResponse.MarshalTo, unmarshal GetPositionsResponse.cases {}⟩

/-- What is left of the message once it has been decoded. -/
def GetPositionsResponse.kept (m : GetPositionsResponse) : GetPositionsResponse :=
  { m with Positions := m.Positions.filter Option.isSome }

theorem GetPositionsResponse.returns (m : GetPositionsResponse) : Returns m m.kept :=
  Reads.scan_eq (by decide) (.messages rfl rfl (fun _ _ => rfl) rfl)

def GetPositionsResponse.Intact (m : GetPositionsResponse) : Prop := none ∉ m.Positions

theorem GetPositionsResponse.kept_eq_iff (m : GetPositionsResponse) : m.kept = m ↔ m.Intact := by
  cases m
  simp only [kept, Intact, mk.injEq, filter_isSome_eq_iff]

/-- `contract.GetOrderHistoryRequest`. -/
structure GetOrderHistoryRequest where
  ExchangeID : Option ExchangeId := none
  Pagination : Option Pagination := none

def GetOrderHistoryRequest.MarshalTo (m : GetOrderHistoryRequest) : List Write :=
  [.pointer 1 m.ExchangeID, .pointer 2 m.Pagination]

def GetOrderHistoryRequest.cases : List (Int64 × Handler GetOrderHistoryRequest) :=
  [(1, decodePointer fun m v => { m with ExchangeID := v }),
   (2, decodePointer fun m v => { m with Pagination := v })]

instance : Message GetOrderHistoryRequest :=
  ⟨GetOrderHistoryRequest.MarshalTo, unmarshal GetOrderHistoryRequest.cases {}⟩

instance : Faithful GetOrderHistoryRequest where
  returns m := Reads.scan_eq (by decide) (.cons (.pointer rfl rfl) <| .cons (.pointer rfl rfl) .nil)

/-- `contract.GetOrderHistoryResponse`. -/
structure GetOrderHistoryResponse where
  Orders : List (Option Order) := []
  Page : Option Page := none

def GetOrderHistoryResponse.MarshalTo (m : GetOrderHistoryResponse) : List Write :=
  m.Orders.map (Write.pointer 1) ++
  [Write.pointer 2 m.Page]

def GetOrderHistoryResponse.cases : List (Int64 × Handler GetOrderHistoryResponse) :=
  [(1, appendMessage fun update m => { m with Orders := update m.Orders }),
   (2, decodePointer fun m v => { m with Page := v })]

instance : Message GetOrderHistoryResponse :=
  ⟨GetOrderHistoryResponse.MarshalTo, unmarshal GetOrderHistoryResponse.cases {}⟩

/-- What is left of the message once it has been decoded. -/
def GetOrderHistoryResponse.kept (m : GetOrderHistoryResponse) : GetOrderHistoryResponse :=
  { m with Orders := m.Orders.filter Option.isSome }

theorem GetOrderHistoryResponse.returns (m : GetOrderHistoryResponse) : Returns m m.kept :=
  Reads.scan_eq (by decide) <| .append
    (.messages rfl rfl (fun _ _ => rfl) rfl)
    (.cons (.pointer rfl rfl) .nil)

def GetOrderHistoryResponse.Intact (m : GetOrderHistoryResponse) : Prop := none ∉ m.Orders

theorem GetOrderHistoryResponse.kept_eq_iff (m : GetOrderHistoryResponse) : m.kept = m ↔ m.Intact := by
  cases m
  simp only [kept, Intact, mk.injEq, and_true, filter_isSome_eq_iff]

/-- `contract.GetClosedPositionsRequest`. -/
structure GetClosedPositionsRequest where
  ExchangeID : Option ExchangeId := none
  Pagination : Option Pagination := none

def GetClosedPositionsRequest.MarshalTo (m : GetClosedPositionsRequest) : List Write :=
  [.pointer 1 m.ExchangeID, .pointer 2 m.Pagination]

def GetClosedPositionsRequest.cases : List (Int64 × Handler GetClosedPositionsRequest) :=
  [(1, decodePointer fun m v => { m with ExchangeID := v }),
   (2, decodePointer fun m v => { m with Pagination := v })]

instance : Message GetClosedPositionsRequest :=
  ⟨GetClosedPositionsRequest.MarshalTo, unmarshal GetClosedPositionsRequest.cases {}⟩

instance : Faithful GetClosedPositionsRequest where
  returns m := Reads.scan_eq (by decide) (.cons (.pointer rfl rfl) <| .cons (.pointer rfl rfl) .nil)

/-- `contract.GetClosedPositionsResponse`. -/
structure GetClosedPositionsResponse where
  Positions : List (Option ClosedPosition) := []
  Page : Option Page := none

def GetClosedPositionsResponse.MarshalTo (m : GetClosedPositionsResponse) : List Write :=
  m.Positions.map (Write.pointer 1) ++
  [Write.pointer 2 m.Page]

def GetClosedPositionsResponse.cases : List (Int64 × Handler GetClosedPositionsResponse) :=
  [(1, appendMessage fun update m => { m with Positions := update m.Positions }),
   (2, decodePointer fun m v => { m with Page := v })]

instance : Message GetClosedPositionsResponse :=
  ⟨GetClosedPositionsResponse.MarshalTo, unmarshal GetClosedPositionsResponse.cases {}⟩

/-- What is left of the message once it has been decoded. -/
def GetClosedPositionsResponse.kept (m : GetClosedPositionsResponse) : GetClosedPositionsResponse :=
  { m with Positions := m.Positions.filter Option.isSome }

theorem GetClosedPositionsResponse.returns (m : GetClosedPositionsResponse) : Returns m m.kept :=
  Reads.scan_eq (by decide) <| .append
    (.messages rfl rfl (fun _ _ => rfl) rfl)
    (.cons (.pointer rfl rfl) .nil)

def GetClosedPositionsResponse.Intact (m : GetClosedPositionsResponse) : Prop := none ∉ m.Positions

theorem GetClosedPositionsResponse.kept_eq_iff (m : GetClosedPositionsResponse) : m.kept = m ↔ m.Intact := by
  cases m
  simp only [kept, Intact, mk.injEq, and_true, filter_isSome_eq_iff]

/-- `contract.ClosePositionRequest`. -/
structure ClosePositionRequest where
  ExchangeID : Option ExchangeId := none
  PositionID : Bytes := []

def ClosePositionRequest.MarshalTo (m : ClosePositionRequest) : List Write :=
  [.pointer 1 m.ExchangeID, .string 2 m.PositionID]

def ClosePositionRequest.cases : List (Int64 × Handler ClosePositionRequest) :=
  [(1, decodePointer fun m v => { m with ExchangeID := v }),
   (2, assign Field.AsString fun m v => { m with PositionID := v })]

instance : Message ClosePositionRequest :=
  ⟨ClosePositionRequest.MarshalTo, unmarshal ClosePositionRequest.cases {}⟩

instance : Faithful ClosePositionRequest where
  returns m := Reads.scan_eq (by decide) (.cons (.pointer rfl rfl) <| .cons (.string rfl rfl) .nil)

/-- `contract.ClosePositionResponse`. -/
structure ClosePositionResponse where
  Position : Option Position := none

def ClosePositionResponse.MarshalTo (m : ClosePositionResponse) : List Write :=
  [.pointer 1 m.Position]

def ClosePositionResponse.cases : List (Int64 × Handler ClosePositionResponse) :=
  [(1, decodePointer fun m v => { m with Position := v })]

instance : Message ClosePositionResponse :=
  ⟨ClosePositionResponse.MarshalTo, unmarshal ClosePositionResponse.cases {}⟩

instance : Faithful ClosePositionResponse where
  returns m := Reads.scan_eq (by decide) (.cons (.pointer rfl rfl) .nil)

/-- `contract.CloseAllPositionsRequest`. -/
structure CloseAllPositionsRequest where
  ExchangeID : Option ExchangeId := none

def CloseAllPositionsRequest.MarshalTo (m : CloseAllPositionsRequest) : List Write :=
  [.pointer 1 m.ExchangeID]

def CloseAllPositionsRequest.cases : List (Int64 × Handler CloseAllPositionsRequest) :=
  [(1, decodePointer fun m v => { m with ExchangeID := v })]

instance : Message CloseAllPositionsRequest :=
  ⟨CloseAllPositionsRequest.MarshalTo, unmarshal CloseAllPositionsRequest.cases {}⟩

instance : Faithful CloseAllPositionsRequest where
  returns m := Reads.scan_eq (by decide) (.cons (.pointer rfl rfl) .nil)

/-- `contract.CloseAllPositionsResponse`. -/
structure CloseAllPositionsResponse where

def CloseAllPositionsResponse.MarshalTo (_ : CloseAllPositionsResponse) : List Write := []

def CloseAllPositionsResponse.cases : List (Int64 × Handler CloseAllPositionsResponse) := []

instance : Message CloseAllPositionsResponse :=
  ⟨CloseAllPositionsResponse.MarshalTo, unmarshal CloseAllPositionsResponse.cases {}⟩

instance : Faithful CloseAllPositionsResponse where
  returns m := Reads.scan_eq (by decide) .nil

/-- `contract.ModifyPositionRequest`. -/
structure ModifyPositionRequest where
  ExchangeID : Option ExchangeId := none
  PositionID : Bytes := []
  TakeProfit : Option Decimal := none
  StopLoss : Option Decimal := none

def ModifyPositionRequest.MarshalTo (m : ModifyPositionRequest) : List Write :=
  [.pointer 1 m.ExchangeID, .string 2 m.PositionID, .pointer 3 m.TakeProfit, .pointer 4 m.StopLoss]

def ModifyPositionRequest.cases : List (Int64 × Handler ModifyPositionRequest) :=
  [(1, decodePointer fun m v => { m with ExchangeID := v }),
   (2, assign Field.AsString fun m v => { m with PositionID := v }),
   (3, decodeDecimal fun m v => { m with TakeProfit := v }),
   (4, decodeDecimal fun m v => { m with StopLoss := v })]

instance : Message ModifyPositionRequest :=
  ⟨ModifyPositionRequest.MarshalTo, unmarshal ModifyPositionRequest.cases {}⟩

instance : Faithful ModifyPositionRequest where
  returns m := Reads.scan_eq (by decide) <|
    .cons (.pointer rfl rfl) <| .cons (.string rfl rfl) <| .cons (.pointer rfl rfl) <|
    .cons (.pointer rfl rfl) .nil

/-- `contract.ModifyPositionResponse`. -/
structure ModifyPositionResponse where
  Position : Option Position := none

def ModifyPositionResponse.MarshalTo (m : ModifyPositionResponse) : List Write :=
  [.pointer 1 m.Position]

def ModifyPositionResponse.cases : List (Int64 × Handler ModifyPositionResponse) :=
  [(1, decodePointer fun m v => { m with Position := v })]

instance : Message ModifyPositionResponse :=
  ⟨ModifyPositionResponse.MarshalTo, unmarshal ModifyPositionResponse.cases {}⟩

instance : Faithful ModifyPositionResponse where
  returns m := Reads.scan_eq (by decide) (.cons (.pointer rfl rfl) .nil)

def tradingMessages : List MessageType :=
  [.whole OrderRequest, .whole Order, .whole Account, .whole Trade, .whole Position,
   .whole ClosedPosition, .whole CreateOrderRequest, .whole CreateOrderResponse,
   ⟨CreateOrdersRequest, CreateOrdersRequest.Intact⟩,
   ⟨CreateOrdersResponse, CreateOrdersResponse.Intact⟩, .whole CancelOrderRequest,
   .whole CancelOrderResponse, .whole CancelAllOrdersRequest,
   ⟨CancelAllOrdersResponse, CancelAllOrdersResponse.Intact⟩, .whole FetchOpenOrdersRequest,
   ⟨FetchOpenOrdersResponse, FetchOpenOrdersResponse.Intact⟩, .whole GetAccountRequest,
   .whole GetAccountResponse, ⟨GetPositionsRequest, GetPositionsRequest.Intact⟩,
   ⟨GetPositionsResponse, GetPositionsResponse.Intact⟩, .whole GetOrderHistoryRequest,
   ⟨GetOrderHistoryResponse, GetOrderHistoryResponse.Intact⟩, .whole GetClosedPositionsRequest,
   ⟨GetClosedPositionsResponse, GetClosedPositionsResponse.Intact⟩, .whole ClosePositionRequest,
   .whole ClosePositionResponse, .whole CloseAllPositionsRequest, .whole CloseAllPositionsResponse,
   .whole ModifyPositionRequest, .whole ModifyPositionResponse]

theorem tradingMessages_roundTrip : ∀ k ∈ tradingMessages, k.RoundTrips := by
  rw [← List.forall_iff_forall_mem]
  exact ⟨roundTrips_whole, roundTrips_whole, roundTrips_whole, roundTrips_whole, roundTrips_whole,
    roundTrips_whole, roundTrips_whole, roundTrips_whole,
    roundTrips_of_returns CreateOrdersRequest.returns CreateOrdersRequest.kept_eq_iff,
    roundTrips_of_returns CreateOrdersResponse.returns CreateOrdersResponse.kept_eq_iff,
    roundTrips_whole, roundTrips_whole, roundTrips_whole,
    roundTrips_of_returns CancelAllOrdersResponse.returns CancelAllOrdersResponse.kept_eq_iff,
    roundTrips_whole,
    roundTrips_of_returns FetchOpenOrdersResponse.returns FetchOpenOrdersResponse.kept_eq_iff,
    roundTrips_whole, roundTrips_whole,
    roundTrips_of_returns GetPositionsRequest.returns GetPositionsRequest.kept_eq_iff,
    roundTrips_of_returns GetPositionsResponse.returns GetPositionsResponse.kept_eq_iff,
    roundTrips_whole,
    roundTrips_of_returns GetOrderHistoryResponse.returns GetOrderHistoryResponse.kept_eq_iff,
    roundTrips_whole,
    roundTrips_of_returns GetClosedPositionsResponse.returns GetClosedPositionsResponse.kept_eq_iff,
    roundTrips_whole, roundTrips_whole, roundTrips_whole, roundTrips_whole, roundTrips_whole,
    roundTrips_whole⟩

end LongTrader.Sdk.Contract
