import LongTrader.Sdk.Contract.RoundTrip
import LongTrader.Sdk.Mistyped

/-! The switches of all messages of the Go contract with the wire types of their fields, and
what becomes of a field that comes in another one. -/

namespace LongTrader.Sdk.Contract

section Cases

variable {T : Type}

instance (set : T → Option Timestamp → T) : Checked (decodeTime set) :=
  inferInstanceAs (Checked (decodePointer set))

instance (set : T → Option Timestamp → T) : Updates (decodeTime set) :=
  inferInstanceAs (Updates (decodePointer set))

instance (set : T → Option Decimal → T) : Checked (decodeDecimal set) :=
  inferInstanceAs (Checked (decodePointer set))

instance (set : T → Option Decimal → T) : Updates (decodeDecimal set) :=
  inferInstanceAs (Updates (decodePointer set))

instance : Checked OrderBook.levels := ⟨fun _ _ other => if_pos other⟩

/-- A level is appended to one side of the book. -/
instance : Updates OrderBook.levels where
  Index := Bool × PriceLevel
  update level m :=
    { m with
      Bids := if level.1 then m.Bids ++ [some level.2] else m.Bids
      Asks := if level.1 then m.Asks else m.Asks ++ [some level.2] }
  choice f := if f.Wire ≠ WireBytes then none
    else match Message.Unmarshal (T := PriceLevel) f.Data with
      | (_, some _) => none
      | (l, none) => some (f.Number = 4, l)
  error f := if f.Wire ≠ WireBytes then none else (Message.Unmarshal (T := PriceLevel) f.Data).2
  eq f m := by
    unfold OrderBook.levels
    split
    · rfl
    · split
      · simp_all
      · split <;> simp_all

end Cases

def Timestamp.declaration : Declaration :=
  { Carrier := Timestamp, zero := {}, cases := Timestamp.cases,
    wires := [(1, WireVarint), (2, WireVarint)] }

def Duration.declaration : Declaration :=
  { Carrier := Duration, zero := {}, cases := Duration.cases,
    wires := [(1, WireVarint), (2, WireVarint)] }

def Decimal.declaration : Declaration :=
  { Carrier := Decimal, zero := {}, cases := Decimal.cases,
    wires := [(1, WireBytes)] }

def ExchangeId.declaration : Declaration :=
  { Carrier := ExchangeId, zero := {}, cases := ExchangeId.cases,
    wires := [(1, WireBytes), (2, WireBytes)] }

def Pagination.declaration : Declaration :=
  { Carrier := Pagination, zero := {}, cases := Pagination.cases,
    wires := [(1, WireVarint), (2, WireVarint), (3, WireBytes)] }

def Page.declaration : Declaration :=
  { Carrier := Page, zero := {}, cases := Page.cases,
    wires := [(1, WireBytes), (2, WireVarint)] }

def EventHeader.declaration : Declaration :=
  { Carrier := EventHeader, zero := {}, cases := EventHeader.cases,
    wires := [(1, WireBytes), (2, WireVarint), (3, WireVarint), (4, WireVarint), (5, WireVarint)] }

def Balance.declaration : Declaration :=
  { Carrier := Balance, zero := {}, cases := Balance.cases,
    wires := [(1, WireBytes), (2, WireBytes), (3, WireBytes), (4, WireBytes)] }

def AccountInfo.declaration : Declaration :=
  { Carrier := AccountInfo, zero := {}, cases := AccountInfo.cases,
    wires := [(1, WireBytes), (2, WireBytes), (3, WireBytes), (4, WireBytes)] }

def LedgerEntry.declaration : Declaration :=
  { Carrier := LedgerEntry, zero := {}, cases := LedgerEntry.cases,
    wires := [(1, WireBytes), (2, WireBytes), (3, WireBytes), (4, WireBytes), (5, WireBytes),
      (6, WireBytes), (7, WireBytes)] }

def OrderRequest.declaration : Declaration :=
  { Carrier := OrderRequest, zero := {}, cases := OrderRequest.cases,
    wires := [(1, WireBytes), (2, WireBytes), (3, WireVarint), (4, WireVarint), (5, WireBytes),
      (6, WireBytes), (7, WireBytes), (8, WireVarint), (9, WireVarint), (10, WireVarint),
      (11, WireBytes)] }

def Order.declaration : Declaration :=
  { Carrier := Order, zero := {}, cases := Order.cases,
    wires := [(1, WireBytes), (2, WireBytes), (3, WireBytes), (4, WireVarint), (5, WireVarint),
      (6, WireVarint), (7, WireBytes), (8, WireBytes), (9, WireBytes), (10, WireBytes),
      (11, WireBytes), (12, WireBytes), (13, WireBytes), (14, WireBytes), (15, WireVarint),
      (16, WireBytes), (17, WireBytes), (18, WireVarint), (19, WireVarint), (20, WireBytes),
      (22, WireBytes), (23, WireBytes), (24, WireBytes), (25, WireBytes)] }

def Account.declaration : Declaration :=
  { Carrier := Account, zero := {}, cases := Account.cases,
    wires := [(1, WireBytes), (2, WireBytes), (3, WireBytes), (4, WireBytes), (5, WireBytes)] }

def Trade.declaration : Declaration :=
  { Carrier := Trade, zero := {}, cases := Trade.cases,
    wires := [(1, WireBytes), (2, WireBytes), (3, WireBytes), (4, WireVarint), (5, WireBytes),
      (6, WireBytes), (7, WireBytes), (8, WireBytes), (9, WireBytes), (10, WireBytes),
      (11, WireVarint)] }

def Position.declaration : Declaration :=
  { Carrier := Position, zero := {}, cases := Position.cases,
    wires := [(1, WireBytes), (2, WireBytes), (3, WireBytes), (4, WireBytes), (5, WireVarint),
      (6, WireBytes), (7, WireBytes), (8, WireBytes), (9, WireBytes), (10, WireBytes),
      (11, WireBytes), (12, WireBytes), (13, WireBytes), (17, WireBytes)] }

def ClosedPosition.declaration : Declaration :=
  { Carrier := ClosedPosition, zero := {}, cases := ClosedPosition.cases,
    wires := [(1, WireBytes), (2, WireBytes), (3, WireBytes), (4, WireVarint), (5, WireBytes),
      (6, WireBytes), (7, WireBytes), (8, WireBytes), (9, WireBytes), (10, WireBytes),
      (11, WireVarint)] }

def CreateOrderRequest.declaration : Declaration :=
  { Carrier := CreateOrderRequest, zero := {}, cases := CreateOrderRequest.cases,
    wires := [(1, WireBytes), (2, WireBytes), (3, WireBytes)] }

def CreateOrderResponse.declaration : Declaration :=
  { Carrier := CreateOrderResponse, zero := {}, cases := CreateOrderResponse.cases,
    wires := [(1, WireBytes)] }

def CreateOrdersRequest.declaration : Declaration :=
  { Carrier := CreateOrdersRequest, zero := {}, cases := CreateOrdersRequest.cases,
    wires := [(1, WireBytes), (2, WireBytes), (3, WireBytes)] }

def CreateOrdersResponse.declaration : Declaration :=
  { Carrier := CreateOrdersResponse, zero := {}, cases := CreateOrdersResponse.cases,
    wires := [(1, WireBytes)] }

def CancelOrderRequest.declaration : Declaration :=
  { Carrier := CancelOrderRequest, zero := {}, cases := CancelOrderRequest.cases,
    wires := [(1, WireBytes), (2, WireBytes), (3, WireBytes)] }

def CancelOrderResponse.declaration : Declaration :=
  { Carrier := CancelOrderResponse, zero := {}, cases := CancelOrderResponse.cases,
    wires := [(1, WireBytes)] }

def CancelAllOrdersRequest.declaration : Declaration :=
  { Carrier := CancelAllOrdersRequest, zero := {}, cases := CancelAllOrdersRequest.cases,
    wires := [(1, WireBytes), (2, WireBytes)] }

def CancelAllOrdersResponse.declaration : Declaration :=
  { Carrier := CancelAllOrdersResponse, zero := {}, cases := CancelAllOrdersResponse.cases,
    wires := [(1, WireBytes)] }

def FetchOpenOrdersRequest.declaration : Declaration :=
  { Carrier := FetchOpenOrdersRequest, zero := {}, cases := FetchOpenOrdersRequest.cases,
    wires := [(1, WireBytes), (2, WireBytes), (3, WireBytes)] }

def FetchOpenOrdersResponse.declaration : Declaration :=
  { Carrier := FetchOpenOrdersResponse, zero := {}, cases := FetchOpenOrdersResponse.cases,
    wires := [(1, WireBytes), (2, WireBytes)] }

def GetAccountRequest.declaration : Declaration :=
  { Carrier := GetAccountRequest, zero := {}, cases := GetAccountRequest.cases,
    wires := [(1, WireBytes)] }

def GetAccountResponse.declaration : Declaration :=
  { Carrier := GetAccountResponse, zero := {}, cases := GetAccountResponse.cases,
    wires := [(1, WireBytes)] }

def GetPositionsRequest.declaration : Declaration :=
  { Carrier := GetPositionsRequest, zero := {}, cases := GetPositionsRequest.cases,
    wires := [(1, WireBytes), (2, WireBytes)] }

def GetPositionsResponse.declaration : Declaration :=
  { Carrier := GetPositionsResponse, zero := {}, cases := GetPositionsResponse.cases,
    wires := [(1, WireBytes)] }

def GetOrderHistoryRequest.declaration : Declaration :=
  { Carrier := GetOrderHistoryRequest, zero := {}, cases := GetOrderHistoryRequest.cases,
    wires := [(1, WireBytes), (2, WireBytes)] }

def GetOrderHistoryResponse.declaration : Declaration :=
  { Carrier := GetOrderHistoryResponse, zero := {}, cases := GetOrderHistoryResponse.cases,
    wires := [(1, WireBytes), (2, WireBytes)] }

def GetClosedPositionsRequest.declaration : Declaration :=
  { Carrier := GetClosedPositionsRequest, zero := {}, cases := GetClosedPositionsRequest.cases,
    wires := [(1, WireBytes), (2, WireBytes)] }

def GetClosedPositionsResponse.declaration : Declaration :=
  { Carrier := GetClosedPositionsResponse, zero := {}, cases := GetClosedPositionsResponse.cases,
    wires := [(1, WireBytes), (2, WireBytes)] }

def ClosePositionRequest.declaration : Declaration :=
  { Carrier := ClosePositionRequest, zero := {}, cases := ClosePositionRequest.cases,
    wires := [(1, WireBytes), (2, WireBytes)] }

def ClosePositionResponse.declaration : Declaration :=
  { Carrier := ClosePositionResponse, zero := {}, cases := ClosePositionResponse.cases,
    wires := [(1, WireBytes)] }

def CloseAllPositionsRequest.declaration : Declaration :=
  { Carrier := CloseAllPositionsRequest, zero := {}, cases := CloseAllPositionsRequest.cases,
    wires := [(1, WireBytes)] }

def CloseAllPositionsResponse.declaration : Declaration :=
  { Carrier := CloseAllPositionsResponse, zero := {}, cases := CloseAllPositionsResponse.cases,
    wires := [] }

def ModifyPositionRequest.declaration : Declaration :=
  { Carrier := ModifyPositionRequest, zero := {}, cases := ModifyPositionRequest.cases,
    wires := [(1, WireBytes), (2, WireBytes), (3, WireBytes), (4, WireBytes)] }

def ModifyPositionResponse.declaration : Declaration :=
  { Carrier := ModifyPositionResponse, zero := {}, cases := ModifyPositionResponse.cases,
    wires := [(1, WireBytes)] }

def Ticker.declaration : Declaration :=
  { Carrier := Ticker, zero := {}, cases := Ticker.cases,
    wires := [(1, WireBytes), (2, WireBytes), (3, WireBytes), (4, WireBytes), (5, WireBytes),
      (6, WireBytes), (7, WireBytes), (8, WireBytes), (9, WireBytes), (10, WireBytes),
      (11, WireBytes), (12, WireBytes), (13, WireBytes), (14, WireBytes), (15, WireBytes),
      (16, WireBytes), (17, WireBytes), (18, WireBytes)] }

def PriceLevel.declaration : Declaration :=
  { Carrier := PriceLevel, zero := {}, cases := PriceLevel.cases,
    wires := [(1, WireBytes), (2, WireBytes)] }

def OrderBook.declaration : Declaration :=
  { Carrier := OrderBook, zero := {}, cases := OrderBook.cases,
    wires := [(1, WireBytes), (2, WireBytes), (3, WireBytes), (4, WireBytes), (5, WireBytes)] }

def PublicTrade.declaration : Declaration :=
  { Carrier := PublicTrade, zero := {}, cases := PublicTrade.cases,
    wires := [(1, WireBytes), (2, WireBytes), (3, WireBytes), (4, WireBytes), (5, WireVarint),
      (6, WireBytes), (7, WireBytes)] }

def OHLCV.declaration : Declaration :=
  { Carrier := OHLCV, zero := {}, cases := OHLCV.cases,
    wires := [(1, WireBytes), (2, WireBytes), (3, WireBytes), (4, WireBytes), (5, WireBytes),
      (6, WireBytes), (7, WireBytes)] }

def StreamSubscription.declaration : Declaration :=
  { Carrier := StreamSubscription, zero := {}, cases := StreamSubscription.cases,
    wires := [(1, WireVarint), (2, WireBytes), (3, WireBytes)] }

def StreamMarketDataRequest.declaration : Declaration :=
  { Carrier := StreamMarketDataRequest, zero := {}, cases := StreamMarketDataRequest.cases,
    wires := [(1, WireBytes), (2, WireBytes), (3, WireBytes)] }

def MarketDataEvent.declaration : Declaration :=
  { Carrier := MarketDataEvent, zero := {}, cases := MarketDataEvent.cases,
    wires := [(1, WireBytes), (2, WireBytes), (3, WireBytes), (4, WireBytes), (5, WireBytes),
      (6, WireBytes)] }

def Candle.declaration : Declaration :=
  { Carrier := Candle, zero := {}, cases := Candle.cases,
    wires := [(1, WireVarint), (2, WireBytes), (3, WireBytes), (4, WireBytes), (5, WireBytes),
      (6, WireBytes)] }

def SymbolInfo.declaration : Declaration :=
  { Carrier := SymbolInfo, zero := {}, cases := SymbolInfo.cases,
    wires := [(1, WireBytes), (2, WireBytes), (3, WireBytes), (4, WireBytes), (5, WireBytes),
      (6, WireBytes)] }

def FetchTickerRequest.declaration : Declaration :=
  { Carrier := FetchTickerRequest, zero := {}, cases := FetchTickerRequest.cases,
    wires := [(1, WireBytes), (2, WireBytes)] }

def FetchTickerResponse.declaration : Declaration :=
  { Carrier := FetchTickerResponse, zero := {}, cases := FetchTickerResponse.cases,
    wires := [(1, WireBytes)] }

def FetchOrderBookRequest.declaration : Declaration :=
  { Carrier := FetchOrderBookRequest, zero := {}, cases := FetchOrderBookRequest.cases,
    wires := [(1, WireBytes), (2, WireBytes), (3, WireBytes)] }

def FetchOrderBookResponse.declaration : Declaration :=
  { Carrier := FetchOrderBookResponse, zero := {}, cases := FetchOrderBookResponse.cases,
    wires := [(1, WireBytes), (2, WireBytes)] }

def GetCandlesRequest.declaration : Declaration :=
  { Carrier := GetCandlesRequest, zero := {}, cases := GetCandlesRequest.cases,
    wires := [(1, WireBytes), (2, WireBytes), (3, WireBytes), (4, WireBytes)] }

def GetCandlesResponse.declaration : Declaration :=
  { Carrier := GetCandlesResponse, zero := {}, cases := GetCandlesResponse.cases,
    wires := [(1, WireBytes), (2, WireBytes)] }

def ListSymbolsRequest.declaration : Declaration :=
  { Carrier := ListSymbolsRequest, zero := {}, cases := ListSymbolsRequest.cases,
    wires := [(1, WireBytes)] }

def ListSymbolsResponse.declaration : Declaration :=
  { Carrier := ListSymbolsResponse, zero := {}, cases := ListSymbolsResponse.cases,
    wires := [(1, WireBytes)] }

def KillSwitchPolicy.declaration : Declaration :=
  { Carrier := KillSwitchPolicy, zero := {}, cases := KillSwitchPolicy.cases,
    wires := [(1, WireBytes), (2, WireVarint)] }

def AttachSessionRequest.declaration : Declaration :=
  { Carrier := AttachSessionRequest, zero := {}, cases := AttachSessionRequest.cases,
    wires := [(1, WireBytes), (2, WireBytes), (3, WireBytes), (4, WireBytes), (5, WireBytes)] }

def AttachSessionResponse.declaration : Declaration :=
  { Carrier := AttachSessionResponse, zero := {}, cases := AttachSessionResponse.cases,
    wires := [(1, WireBytes), (2, WireVarint), (3, WireBytes), (4, WireBytes)] }

def KeepAliveRequest.declaration : Declaration :=
  { Carrier := KeepAliveRequest, zero := {}, cases := KeepAliveRequest.cases,
    wires := [(1, WireBytes), (2, WireVarint)] }

def KeepAliveResponse.declaration : Declaration :=
  { Carrier := KeepAliveResponse, zero := {}, cases := KeepAliveResponse.cases,
    wires := [(1, WireVarint), (2, WireVarint)] }

def ReconcileStateRequest.declaration : Declaration :=
  { Carrier := ReconcileStateRequest, zero := {}, cases := ReconcileStateRequest.cases,
    wires := [(1, WireBytes)] }

def ReconcileStateResponse.declaration : Declaration :=
  { Carrier := ReconcileStateResponse, zero := {}, cases := ReconcileStateResponse.cases,
    wires := [(1, WireVarint), (2, WireBytes), (3, WireBytes), (4, WireBytes), (5, WireBytes)] }

def SetKillSwitchPolicyRequest.declaration : Declaration :=
  { Carrier := SetKillSwitchPolicyRequest, zero := {}, cases := SetKillSwitchPolicyRequest.cases,
    wires := [(1, WireBytes), (2, WireBytes)] }

def SetKillSwitchPolicyResponse.declaration : Declaration :=
  { Carrier := SetKillSwitchPolicyResponse, zero := {}, cases := SetKillSwitchPolicyResponse.cases,
    wires := [] }

def RegisterStrategyRequest.declaration : Declaration :=
  { Carrier := RegisterStrategyRequest, zero := {}, cases := RegisterStrategyRequest.cases,
    wires := [(1, WireBytes), (2, WireBytes), (3, WireBytes)] }

def RegisterStrategyResponse.declaration : Declaration :=
  { Carrier := RegisterStrategyResponse, zero := {}, cases := RegisterStrategyResponse.cases,
    wires := [(1, WireBytes)] }

def StrategyStatusRequest.declaration : Declaration :=
  { Carrier := StrategyStatusRequest, zero := {}, cases := StrategyStatusRequest.cases,
    wires := [(1, WireBytes)] }

def StrategyStatusResponse.declaration : Declaration :=
  { Carrier := StrategyStatusResponse, zero := {}, cases := StrategyStatusResponse.cases,
    wires := [(2, WireVarint), (3, WireBytes), (4, WireBytes), (5, WireBytes), (6, WireVarint),
      (7, WireVarint)] }

def StopStrategyRequest.declaration : Declaration :=
  { Carrier := StopStrategyRequest, zero := {}, cases := StopStrategyRequest.cases,
    wires := [(1, WireBytes), (2, WireVarint)] }

def StopStrategyResponse.declaration : Declaration :=
  { Carrier := StopStrategyResponse, zero := {}, cases := StopStrategyResponse.cases,
    wires := [(1, WireVarint)] }

def LogEvent.declaration : Declaration :=
  { Carrier := LogEvent, zero := {}, cases := LogEvent.cases,
    wires := [(1, WireBytes), (2, WireVarint), (3, WireBytes), (4, WireBytes), (5, WireBytes)] }

def ReportLogResponse.declaration : Declaration :=
  { Carrier := ReportLogResponse, zero := {}, cases := ReportLogResponse.cases,
    wires := [(1, WireVarint)] }

def StreamStrategyEventsRequest.declaration : Declaration :=
  { Carrier := StreamStrategyEventsRequest, zero := {}, cases := StreamStrategyEventsRequest.cases,
    wires := [(1, WireBytes), (2, WireBytes)] }

def StateChange.declaration : Declaration :=
  { Carrier := StateChange, zero := {}, cases := StateChange.cases,
    wires := [(1, WireVarint), (2, WireVarint), (3, WireBytes)] }

def OrderUpdate.declaration : Declaration :=
  { Carrier := OrderUpdate, zero := {}, cases := OrderUpdate.cases,
    wires := [(1, WireBytes), (2, WireBytes)] }

def StrategyEvent.declaration : Declaration :=
  { Carrier := StrategyEvent, zero := {}, cases := StrategyEvent.cases,
    wires := [(1, WireBytes), (2, WireBytes), (3, WireBytes), (4, WireBytes), (5, WireBytes),
      (6, WireBytes), (7, WireBytes), (8, WireBytes), (9, WireBytes)] }

/-- The types of the contract, in the order of `contractMessages`. -/
def contractDeclarations : List Declaration :=
  [Timestamp.declaration, Duration.declaration, Decimal.declaration, ExchangeId.declaration,
   Pagination.declaration, Page.declaration, EventHeader.declaration, Balance.declaration,
   AccountInfo.declaration, LedgerEntry.declaration, OrderRequest.declaration, Order.declaration,
   Account.declaration, Trade.declaration, Position.declaration, ClosedPosition.declaration,
   CreateOrderRequest.declaration, CreateOrderResponse.declaration, CreateOrdersRequest.declaration,
   CreateOrdersResponse.declaration, CancelOrderRequest.declaration,
   CancelOrderResponse.declaration, CancelAllOrdersRequest.declaration,
   CancelAllOrdersResponse.declaration, FetchOpenOrdersRequest.declaration,
   FetchOpenOrdersResponse.declaration, GetAccountRequest.declaration,
   GetAccountResponse.declaration, GetPositionsRequest.declaration,
   GetPositionsResponse.declaration, GetOrderHistoryRequest.declaration,
   GetOrderHistoryResponse.declaration, GetClosedPositionsRequest.declaration,
   GetClosedPositionsResponse.declaration, ClosePositionRequest.declaration,
   ClosePositionResponse.declaration, CloseAllPositionsRequest.declaration,
   CloseAllPositionsResponse.declaration, ModifyPositionRequest.declaration,
   ModifyPositionResponse.declaration, Ticker.declaration, PriceLevel.declaration,
   OrderBook.declaration, PublicTrade.declaration, OHLCV.declaration,
   StreamSubscription.declaration, StreamMarketDataRequest.declaration, MarketDataEvent.declaration,
   Candle.declaration, SymbolInfo.declaration, FetchTickerRequest.declaration,
   FetchTickerResponse.declaration, FetchOrderBookRequest.declaration,
   FetchOrderBookResponse.declaration, GetCandlesRequest.declaration,
   GetCandlesResponse.declaration, ListSymbolsRequest.declaration, ListSymbolsResponse.declaration,
   KillSwitchPolicy.declaration, AttachSessionRequest.declaration,
   AttachSessionResponse.declaration, KeepAliveRequest.declaration, KeepAliveResponse.declaration,
   ReconcileStateRequest.declaration, ReconcileStateResponse.declaration,
   SetKillSwitchPolicyRequest.declaration, SetKillSwitchPolicyResponse.declaration,
   RegisterStrategyRequest.declaration, RegisterStrategyResponse.declaration,
   StrategyStatusRequest.declaration, StrategyStatusResponse.declaration,
   StopStrategyRequest.declaration, StopStrategyResponse.declaration, LogEvent.declaration,
   ReportLogResponse.declaration, StreamStrategyEventsRequest.declaration, StateChange.declaration,
   OrderUpdate.declaration, StrategyEvent.declaration]

/-- These are all types of the contract, with their encoders and decoders. -/
theorem contractDeclarations_cover :
    (contractDeclarations.map fun k => (⟨k.Carrier, k.message⟩ : Σ T, Message T)) =
      contractMessages.map fun k => ⟨k.Carrier, k.message⟩ := rfl

/-- In every type of the contract a field of a known number and of another wire type than the declared
one leaves a message as it is just if it is harmless where it is inserted. -/
theorem mistyped_ignored_iff : ∀ k ∈ contractDeclarations,
    ∀ {front extra back : Bytes} {before after : List Field} {f : Field} {wire : Int64} {m : k.Carrier},
      WellFormed front before → WellFormed back after → WireField extra f →
      (front ++ (extra ++ back)).length < 2 ^ 63 →
      Message.Unmarshal (front ++ back) = (m, none) →
      k.wires.lookup f.Number = some wire → f.Wire ≠ wire →
      (Message.Unmarshal (front ++ (extra ++ back)) = (m, none) ↔ k.Harmless f wire before after) := by
  intro k _ front extra back before after f wire m head tail field bound decoded declared mistyped
  exact k.unmarshal_mistyped_iff head tail field bound decoded declared mistyped

/-- The bytes of `1.5`. -/
def price : Bytes := [10, 3, 49, 46, 53]

/-- Field 1 as a varint. -/
def mistyped : Bytes := [8, 7]

theorem varint_small {b : UInt8} (small : b.toNat < 128) : IsVarint [b] b.toNat :=
  ⟨.last small, Nat.succ_le_succ (Nat.zero_le _), by omega⟩

theorem wellFormed_price : WellFormed price [⟨1, WireBytes, 0, [49, 46, 53]⟩] := by
  have payload : IsPayload ⟨1, WireBytes, 0, [49, 46, 53]⟩ ([3] ++ [49, 46, 53]) :=
    .bytes 1 (@varint_small 3 (by decide))
  have field : WireField ([10] ++ ([3] ++ [49, 46, 53])) ⟨1, WireBytes, 0, [49, 46, 53]⟩ :=
    .mk (by decide) (by decide) (@varint_small 10 (by decide)) payload
  exact .cons field .nil

theorem wireField_mistyped : WireField mistyped ⟨1, WireVarint, 7, []⟩ :=
  @WireField.mk ⟨1, WireVarint, 7, []⟩ [8] [7] (by decide) (by decide)
    (@varint_small 8 (by decide)) (.varint 1 (@varint_small 7 (by decide)))

/-- In front of the price the field changes nothing. -/
theorem mistyped_ignored_iff_before :
    Message.Unmarshal ([] ++ (mistyped ++ price)) = ((⟨[49, 46, 53]⟩ : Decimal), none) := by
  have decoded : Message.Unmarshal ([] ++ price) = ((⟨[49, 46, 53]⟩ : Decimal), none) := by
    decide +kernel
  have listed : Decimal.declaration ∈ contractDeclarations := by simp [contractDeclarations]
  refine (@mistyped_ignored_iff _ listed _ _ _ _ _ _ WireBytes _ .nil wellFormed_price
    wireField_mistyped (by decide) decoded rfl (by decide)).mpr ?_
  exact .inr (.inl ⟨_, List.mem_singleton_self _, rfl⟩)

/-- Behind the price it clears it. -/
theorem mistyped_clears_price :
    Message.Unmarshal price = ((⟨[49, 46, 53]⟩ : Decimal), none) ∧
      WireField mistyped ⟨1, WireVarint, 7, []⟩ ∧ Decimal.declaration.wires.lookup 1 = some WireBytes ∧
      Message.Unmarshal (price ++ mistyped) = ((⟨[]⟩ : Decimal), none) :=
  ⟨by decide +kernel, wireField_mistyped, rfl, by decide +kernel⟩

end LongTrader.Sdk.Contract
