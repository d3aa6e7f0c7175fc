import LongTrader.Sdk.Contract.Common

/-! The market messages of the Go contract: tickers, books, trades and candles, and the requests
and responses of the market service. -/

namespace LongTrader.Sdk.Contract

/-- `contract.Ticker`. -/
structure Ticker where
  Header : Option EventHeader := none
  Symbol : Bytes := []
  Timestamp : Option Timestamp := none
  Bid : Decimal := {}
  BidVolume : Decimal := {}
  Ask : Decimal := {}
  AskVolume : Decimal := {}
  Last : Decimal := {}
  High : Decimal := {}
  Low : Decimal := {}
  Open : Decimal := {}
  Close : Decimal := {}
  BaseVolume : Decimal := {}
  QuoteVolume : Decimal := {}
  Change : Decimal := {}
  Percentage : Decimal := {}
  VWAP : Decimal := {}
  Average : Decimal := {}

def Ticker.MarshalTo (m : Ticker) : List Write :=
  [.pointer 1 m.Header, .string 2 m.Symbol, .pointer 3 m.Timestamp, .value 4 m.Bid,
   .value 5 m.BidVolume, .value 6 m.Ask, .value 7 m.AskVolume, .value 8 m.Last, .value 9 m.High,
   .value 10 m.Low, .value 11 m.Open, .value 12 m.Close, .value 13 m.BaseVolume,
   .value 14 m.QuoteVolume, .value 15 m.Change, .value 16 m.Percentage, .value 17 m.VWAP,
   .value 18 m.Average]

def Ticker.cases : List (Int64 × Handler Ticker) :=
  [(1, decodePointer fun m v => { m with Header := v }),
   (2, assign Field.AsString fun m v => { m with Symbol := v }),
   (3, decodeTime fun m v => { m with Timestamp := v }),
   (4, decodeSub fun m v => { m with Bid := v }),
   (5, decodeSub fun m v => { m with BidVolume := v }),
   (6, decodeSub fun m v => { m with Ask := v }),
   (7, decodeSub fun m v => { m with AskVolume := v }),
   (8, decodeSub fun m v => { m with Last := v }),
   (9, decodeSub fun m v => { m with High := v }),
   (10, decodeSub fun m v => { m with Low := v }),
   (11, decodeSub fun m v => { m with Open := v }),
   (12, decodeSub fun m v => { m with Close := v }),
   (13, decodeSub fun m v => { m with BaseVolume := v }),
   (14, decodeSub fun m v => { m with QuoteVolume := v }),
   (15, decodeSub fun m v => { m with Change := v }),
   (16, decodeSub fun m v => { m with Percentage := v }),
   (17, decodeSub fun m v => { m with VWAP := v }),
   (18, decodeSub fun m v => { m with Average := v })]

instance : Message Ticker := ⟨Ticker.MarshalTo, unmarshal Ticker.cases {}⟩

instance : Faithful Ticker where
  returns m := Reads.scan_eq (by decide) <|
    .cons (.pointer rfl rfl) <| .cons (.string rfl rfl) <| .cons (.pointer rfl rfl) <|
    .cons (.value rfl) <| .cons (.value rfl) <| .cons (.value rfl) <| .cons (.value rfl) <|
    .cons (.value rfl) <| .cons (.value rfl) <| .cons (.value rfl) <| .cons (.value rfl) <|
    .cons (.value rfl) <| .cons (.value rfl) <| .cons (.value rfl) <| .cons (.value rfl) <|
    .cons (.value rfl) <| .cons (.value rfl) <| .cons (.value rfl) .nil

/-- `contract.PriceLevel`. -/
structure PriceLevel where
  Price : Decimal := {}
  Amount : Decimal := {}

def PriceLevel.MarshalTo (m : PriceLevel) : List Write := [.value 1 m.Price, .value 2 m.Amount]

def PriceLevel.cases : List (Int64 × Handler PriceLevel) :=
  [(1, decodeSub fun m v => { m with Price := v }),
   (2, decodeSub fun m v => { m with Amount := v })]

instance : Message PriceLevel := ⟨PriceLevel.MarshalTo, unmarshal PriceLevel.cases {}⟩

instance : Faithful PriceLevel where
  returns m := Reads.scan_eq (by decide) (.cons (.value rfl) <| .cons (.value rfl) .nil)

/-- `contract.OrderBook`. -/
structure OrderBook where
  Header : Option EventHeader := none
  Symbol : Bytes := []
  Timestamp : Option Timestamp := none
  Bids : List (Option PriceLevel) := []
  Asks : List (Option PriceLevel) := []

def OrderBook.MarshalTo (m : OrderBook) : List Write :=
  [Write.pointer 1 m.Header, .string 2 m.Symbol, .pointer 3 m.Timestamp] ++
  m.Bids.map (Write.pointer 4) ++
  m.Asks.map (Write.pointer 5)

/-- Both sides of the book are decoded by one case. -/
def OrderBook.levels : Handler OrderBook := fun f m =>
  if f.Wire ≠ WireBytes then (m, none)
  else match Message.Unmarshal f.Data with
    | (_, some error) => (m, some error)
    | ((l : PriceLevel), none) =>
      if f.Number = 4 then ({ m with Bids := m.Bids ++ [some l] }, none)
      else ({ m with Asks := m.Asks ++ [some l] }, none)

def OrderBook.cases : List (Int64 × Handler OrderBook) :=
  [(1, decodePointer fun m v => { m with Header := v }),
   (2, assign Field.AsString fun m v => { m with Symbol := v }),
   (3, decodeTime fun m v => { m with Timestamp := v }),
   (4, OrderBook.levels),
   (5, OrderBook.levels)]

instance : Message OrderBook := ⟨OrderBook.MarshalTo, unmarshal OrderBook.cases {}⟩

/-- What is left of the message once it has been decoded. -/
def OrderBook.kept (m : OrderBook) : OrderBook :=
  { m with Bids := m.Bids.filter Option.isSome, Asks := m.Asks.filter Option.isSome }

theorem OrderBook.levels_bids (f : Field) (m : OrderBook) (bid : f.Number = 4) :
    levels f m = appendMessage (fun update m => { m with Bids := update m.Bids }) f m := by
  unfold levels appendMessage
  rw [bid]
  generalize (Message.Unmarshal f.Data : PriceLevel × Option DecodeError) = result
  obtain ⟨l, _ | error⟩ := result
  · rfl
  · rfl

theorem OrderBook.levels_asks (f : Field) (m : OrderBook) (ask : f.Number = 5) :
    levels f m = appendMessage (fun update m => { m with Asks := update m.Asks }) f m := by
  unfold levels appendMessage
  rw [ask]
  generalize (Message.Unmarshal f.Data : PriceLevel × Option DecodeError) = result
  obtain ⟨l, _ | error⟩ := result
  · rfl
  · rfl

theorem OrderBook.returns (m : OrderBook) : Returns m m.kept :=
  Reads.scan_eq (by decide) <| .append (.append
    (.cons (.pointer rfl rfl) <| .cons (.string rfl rfl) <| .cons (.pointer rfl rfl) .nil)
    (.messagesBy rfl OrderBook.levels_bids rfl (fun _ _ => rfl) rfl))
    (.messagesBy rfl OrderBook.levels_asks rfl (fun _ _ => rfl) rfl)

def OrderBook.Intact (m : OrderBook) : Prop := none ∉ m.Bids ∧ none ∉ m.Asks

theorem OrderBook.kept_eq_iff (m : OrderBook) : m.kept = m ↔ m.Intact := by
  cases m
  simp only [kept, Intact, mk.injEq, true_and, filter_isSome_eq_iff]

theorem OrderBook.map_kept_eq_iff (book : Option OrderBook) :
    book.map OrderBook.kept = book ↔ ∀ one ∈ book, one.Intact := by
  cases book with
  | none => simp
  | some book => simpa using OrderBook.kept_eq_iff book

/-- `contract.PublicTrade`. -/
structure PublicTrade where
  Header : Option EventHeader := none
  ID : Bytes := []
  Symbol : Bytes := []
  Timestamp : Option Timestamp := none
  Side : TradeSide := 0
  Price : Decimal := {}
  Amount : Decimal := {}

def PublicTrade.MarshalTo (m : PublicTrade) : List Write :=
  [.pointer 1 m.Header, .string 2 m.ID, .string 3 m.Symbol, .pointer 4 m.Timestamp,
   .int32 5 m.Side, .value 6 m.Price, .value 7 m.Amount]

def PublicTrade.cases : List (Int64 × Handler PublicTrade) :=
  [(1, decodePointer fun m v => { m with Header := v }),
   (2, assign Field.AsString fun m v => { m with ID := v }),
   (3, assign Field.AsString fun m v => { m with Symbol := v }),
   (4, decodeTime fun m v => { m with Timestamp := v }),
   (5, assign Field.AsInt32 fun m v => { m with Side := v }),
   (6, decodeSub fun m v => { m with Price := v }),
   (7, decodeSub fun m v => { m with Amount := v })]

instance : Message PublicTrade := ⟨PublicTrade.MarshalTo, unmarshal PublicTrade.cases {}⟩

instance : Faithful PublicTrade where
  returns m := Reads.scan_eq (by decide) <|
    .cons (.pointer rfl rfl) <| .cons (.string rfl rfl) <| .cons (.string rfl rfl) <|
    .cons (.pointer rfl rfl) <| .cons (.int32 rfl rfl) <| .cons (.value rfl) <|
    .cons (.value rfl) .nil

/-- `contract.OHLCV`. -/
structure OHLCV where
  Header : Option EventHeader := none
  Timestamp : Option Timestamp := none
  Open : Decimal := {}
  High : Decimal := {}
  Low : Decimal := {}
  Close : Decimal := {}
  Volume : Decimal := {}

def OHLCV.MarshalTo (m : OHLCV) : List Write :=
  [.pointer 1 m.Header, .pointer 2 m.Timestamp, .value 3 m.Open, .value 4 m.High, .value 5 m.Low,
   .value 6 m.Close, .value 7 m.Volume]

def OHLCV.cases : List (Int64 × Handler OHLCV) :=
  [(1, decodePointer fun m v => { m with Header := v }),
   (2, decodeTime fun m v => { m with Timestamp := v }),
   (3, decodeSub fun m v => { m with Open := v }),
   (4, decodeSub fun m v => { m with High := v }),
   (5, decodeSub fun m v => { m with Low := v }),
   (6, decodeSub fun m v => { m with Close := v }),
   (7, decodeSub fun m v => { m with Volume := v })]

instance : Message OHLCV := ⟨OHLCV.MarshalTo, unmarshal OHLCV.cases {}⟩

instance : Faithful OHLCV where
  returns m := Reads.scan_eq (by decide) <|
    .cons (.pointer rfl rfl) <| .cons (.pointer rfl rfl) <| .cons (.value rfl) <|
    .cons (.value rfl) <| .cons (.value rfl) <| .cons (.value rfl) <| .cons (.value rfl) .nil

/-- `contract.StreamSubscription`. -/
structure StreamSubscription where
  Channel : StreamChannel := 0
  Symbol : Bytes := []
  Params : StringMap := .empty

def StreamSubscription.MarshalTo (m : StreamSubscription) : List Write :=
  [Write.int32 1 m.Channel, .string 2 m.Symbol] ++
  encodeMap 3 m.Params

def StreamSubscription.cases : List (Int64 × Handler StreamSubscription) :=
  [(1, assign Field.AsInt32 fun m v => { m with Channel := v }),
   (2, assign Field.AsString fun m v => { m with Symbol := v }),
   (3, decodeMapEntry 3 fun update m => { m with Params := update m.Params })]

instance : Message StreamSubscription :=
  ⟨StreamSubscription.MarshalTo, unmarshal StreamSubscription.cases {}⟩

instance : Faithful StreamSubscription where
  returns m :=
    Reads.scan_eq (by decide) <| .append
      (.cons (.int32 rfl rfl) <| .cons (.string rfl rfl) .nil)
      (.map rfl rfl (fun _ _ => rfl) rfl)

/-- `contract.StreamMarketDataRequest`. -/
structure StreamMarketDataRequest where
  ExchangeID : Option ExchangeId := none
  Subscriptions : List (Option StreamSubscription) := []
  ResumeToken : Bytes := []

def StreamMarketDataRequest.MarshalTo (m : StreamMarketDataRequest) : List Write :=
  [Write.pointer 1 m.ExchangeID] ++
  m.Subscriptions.map (Write.pointer 2) ++
  [Write.string 3 m.ResumeToken]

def StreamMarketDataRequest.cases : List (Int64 × Handler StreamMarketDataRequest) :=
  [(1, decodePointer fun m v => { m with ExchangeID := v }),
   (2, appendMessage fun update m => { m with Subscriptions := update m.Subscriptions }),
   (3, assign Field.AsString fun m v => { m with ResumeToken := v })]

instance : Message StreamMarketDataRequest :=
  ⟨StreamMarketDataRequest.MarshalTo, unmarshal StreamMarketDataRequest.cases {}⟩

/-- What is left of the message once it has been decoded. -/
def StreamMarketDataRequest.kept (m : StreamMarketDataRequest) : StreamMarketDataRequest :=
  { m with Subscriptions := m.Subscriptions.filter Option.isSome }

theorem StreamMarketDataRequest.returns (m : StreamMarketDataRequest) : Returns m m.kept :=
  Reads.scan_eq (by decide) <| .append (.append
    (.cons (.pointer rfl rfl) .nil)
    (.messages rfl rfl (fun _ _ => rfl) rfl))
    (.cons (.string rfl rfl) .nil)

def StreamMarketDataRequest.Intact (m : StreamMarketDataRequest) : Prop := none ∉ m.Subscriptions

theorem StreamMarketDataRequest.kept_eq_iff (m : StreamMarketDataRequest) : m.kept = m ↔ m.Intact := by
  cases m
  simp only [kept, Intact, mk.injEq, true_and, and_true, filter_isSome_eq_iff]

/-- `contract.MarketDataEvent`. -/
structure MarketDataEvent where
  Header : Option EventHeader := none
  Ticker : Option Ticker := none
  Orderbook : Option OrderBook := none
  Trade : Option PublicTrade := none
  OHLCV : Option OHLCV := none
  ResumeToken : Bytes := []

def MarketDataEvent.MarshalTo (m : MarketDataEvent) : List Write :=
  [.pointer 1 m.Header, .pointer 2 m.Ticker, .pointer 3 m.Orderbook, .pointer 4 m.Trade,
   .pointer 5 m.OHLCV, .string 6 m.ResumeToken]

def MarketDataEvent.cases : List (Int64 × Handler MarketDataEvent) :=
  [(1, decodePointer fun m v => { m with Header := v }),
   (2, decodePointer fun m v => { m with Ticker := v }),
   (3, decodePointer fun m v => { m with Orderbook := v }),
   (4, decodePointer fun m v => { m with Trade := v }),
   (5, decodePointer fun m v => { m with OHLCV := v }),
   (6, assign Field.AsString fun m v => { m with ResumeToken := v })]

instance : Message MarketDataEvent :=
  ⟨MarketDataEvent.MarshalTo, unmarshal MarketDataEvent.cases {}⟩

/-- What is left of the message once it has been decoded. -/
def MarketDataEvent.kept (m : MarketDataEvent) : MarketDataEvent :=
  { m with Orderbook := m.Orderbook.map OrderBook.kept }

theorem MarketDataEvent.returns (m : MarketDataEvent) : Returns m m.kept :=
  Reads.scan_eq (by decide) <|
    .cons (.pointer rfl rfl) <| .cons (.pointer rfl rfl) <|
    .cons (.pointerBack OrderBook.returns rfl rfl) <| .cons (.pointer rfl rfl) <|
    .cons (.pointer rfl rfl) <| .cons (.string rfl rfl) .nil

def MarketDataEvent.Intact (m : MarketDataEvent) : Prop := ∀ book ∈ m.Orderbook, book.Intact

theorem MarketDataEvent.kept_eq_iff (m : MarketDataEvent) : m.kept = m ↔ m.Intact := by
  cases m
  simp only [kept, Intact, mk.injEq, true_and, and_true, OrderBook.map_kept_eq_iff]

/-- `contract.Candle`. -/
structure Candle where
  TimestampMS : Int64 := 0
  Open : Decimal := {}
  High : Decimal := {}
  Low : Decimal := {}
  Close : Decimal := {}
  Volume : Decimal := {}

def Candle.MarshalTo (m : Candle) : List Write :=
  [.int64 1 m.TimestampMS, .value 2 m.Open, .value 3 m.High, .value 4 m.Low, .value 5 m.Close,
   .value 6 m.Volume]

def Candle.cases : List (Int64 × Handler Candle) :=
  [(1, assign Field.AsInt64 fun m v => { m with TimestampMS := v }),
   (2, decodeSub fun m v => { m with Open := v }),
   (3, decodeSub fun m v => { m with High := v }),
   (4, decodeSub fun m v => { m with Low := v }),
   (5, decodeSub fun m v => { m with Close := v }),
   (6, decodeSub fun m v => { m with Volume := v })]

instance : Message Candle := ⟨Candle.MarshalTo, unmarshal Candle.cases {}⟩

instance : Faithful Candle where
  returns m := Reads.scan_eq (by decide) <|
    .cons (.int64 rfl rfl) <| .cons (.value rfl) <| .cons (.value rfl) <| .cons (.value rfl) <|
    .cons (.value rfl) <| .cons (.value rfl) .nil

/-- `contract.SymbolInfo`. -/
structure SymbolInfo where
  Name : Bytes := []
  DisplayName : Bytes := []
  BaseAsset : Bytes := []
  QuoteAsset : Bytes := []
  ContractSize : Decimal := {}
  TickSize : Decimal := {}

def SymbolInfo.MarshalTo (m : SymbolInfo) : List Write :=
  [.string 1 m.Name, .string 2 m.DisplayName, .string 3 m.BaseAsset, .string 4 m.QuoteAsset,
   .value 5 m.ContractSize, .value 6 m.TickSize]

def SymbolInfo.cases : List (Int64 × Handler SymbolInfo) :=
  [(1, assign Field.AsString fun m v => { m with Name := v }),
   (2, assign Field.AsString fun m v => { m with DisplayName := v }),
   (3, assign Field.AsString fun m v => { m with BaseAsset := v }),
   (4, assign Field.AsString fun m v => { m with QuoteAsset := v }),
   (5, decodeSub fun m v => { m with ContractSize := v }),
   (6, decodeSub fun m v => { m with TickSize := v })]

instance : Message SymbolInfo := ⟨SymbolInfo.MarshalTo, unmarshal SymbolInfo.cases {}⟩

instance : Faithful SymbolInfo where
  returns m := Reads.scan_eq (by decide) <|
    .cons (.string rfl rfl) <| .cons (.string rfl rfl) <| .cons (.string rfl rfl) <|
    .cons (.string rfl rfl) <| .cons (.value rfl) <| .cons (.value rfl) .nil

/-- `contract.FetchTickerRequest`. -/
structure FetchTickerRequest where
  ExchangeID : Option ExchangeId := none
  Symbol : Bytes := []

def FetchTickerRequest.MarshalTo (m : FetchTickerRequest) : List Write :=
  [.pointer 1 m.ExchangeID, .string 2 m.Symbol]

def FetchTickerRequest.cases : List (Int64 × Handler FetchTickerRequest) :=
  [(1, decodePointer fun m v => { m with ExchangeID := v }),
   (2, assign Field.AsString fun m v => { m with Symbol := v })]

instance : Message FetchTickerRequest :=
  ⟨FetchTickerRequest.MarshalTo, unmarshal FetchTickerRequest.cases {}⟩

instance : Faithful FetchTickerRequest where
  returns m := Reads.scan_eq (by decide) (.cons (.pointer rfl rfl) <| .cons (.string rfl rfl) .nil)

/-- `contract.FetchTickerResponse`. -/
structure FetchTickerResponse where
  Ticker : Option Ticker := none

def FetchTickerResponse.MarshalTo (m : FetchTickerResponse) : List Write := [.pointer 1 m.Ticker]

def FetchTickerResponse.cases : List (Int64 × Handler FetchTickerResponse) :=
  [(1, decodePointer fun m v => { m with Ticker := v })]

instance : Message FetchTickerResponse :=
  ⟨FetchTickerResponse.MarshalTo, unmarshal FetchTickerResponse.cases {}⟩

instance : Faithful FetchTickerResponse where
  returns m := Reads.scan_eq (by decide) (.cons (.pointer rfl rfl) .nil)

/-- `contract.FetchOrderBookRequest`. -/
structure FetchOrderBookRequest where
  ExchangeID : Option ExchangeId := none
  Symbol : Bytes := []
  Pagination : Option Pagination := none

def FetchOrderBookRequest.MarshalTo (m : FetchOrderBookRequest) : List Write :=
  [.pointer 1 m.ExchangeID, .string 2 m.Symbol, .pointer 3 m.Pagination]

def FetchOrderBookRequest.cases : List (Int64 × Handler FetchOrderBookRequest) :=
  [(1, decodePointer fun m v => { m with ExchangeID := v }),
   (2, assign Field.AsString fun m v => { m with Symbol := v }),
   (3, decodePointer fun m v => { m with Pagination := v })]

instance : Message FetchOrderBookRequest :=
  ⟨FetchOrderBookRequest.MarshalTo, unmarshal FetchOrderBookRequest.cases {}⟩

instance : Faithful FetchOrderBookRequest where
  returns m := Reads.scan_eq (by decide) <|
    .cons (.pointer rfl rfl) <| .cons (.string rfl rfl) <| .cons (.pointer rfl rfl) .nil

/-- `contract.FetchOrderBookResponse`. -/
structure FetchOrderBookResponse where
  Orderbook : Option OrderBook := none
  Page : Option Page := none

def FetchOrderBookResponse.MarshalTo (m : FetchOrderBookResponse) : List Write :=
  [.pointer 1 m.Orderbook, .pointer 2 m.Page]

def FetchOrderBookResponse.cases : List (Int64 × Handler FetchOrderBookResponse) :=
  [(1, decodePointer fun m v => { m with Orderbook := v }),
   (2, decodePointer fun m v => { m with Page := v })]

instance : Message FetchOrderBookResponse :=
  ⟨FetchOrderBookResponse.MarshalTo, unmarshal FetchOrderBookResponse.cases {}⟩

/-- What is left of the message once it has been decoded. -/
def FetchOrderBookResponse.kept (m : FetchOrderBookResponse) : FetchOrderBookResponse :=
  { m with Orderbook := m.Orderbook.map OrderBook.kept }

theorem FetchOrderBookResponse.returns (m : FetchOrderBookResponse) : Returns m m.kept :=
  Reads.scan_eq (by decide) <|
    .cons (.pointerBack OrderBook.returns rfl rfl) <| .cons (.pointer rfl rfl) .nil

def FetchOrderBookResponse.Intact (m : FetchOrderBookResponse) : Prop :=
  ∀ book ∈ m.Orderbook, book.Intact

theorem FetchOrderBookResponse.kept_eq_iff (m : FetchOrderBookResponse) : m.kept = m ↔ m.Intact := by
  cases m
  simp only [kept, Intact, mk.injEq, and_true, OrderBook.map_kept_eq_iff]

/-- `contract.GetCandlesRequest`. -/
structure GetCandlesRequest where
  ExchangeID : Option ExchangeId := none
  Symbol : Bytes := []
  Timeframe : Bytes := []
  Pagination : Option Pagination := none

def GetCandlesRequest.MarshalTo (m : GetCandlesRequest) : List Write :=
  [.pointer 1 m.ExchangeID, .string 2 m.Symbol, .string 3 m.Timeframe, .pointer 4 m.Pagination]

def GetCandlesRequest.cases : List (Int64 × Handler GetCandlesRequest) :=
  [(1, decodePointer fun m v => { m with ExchangeID := v }),
   (2, assign Field.AsString fun m v => { m with Symbol := v }),
   (3, assign Field.AsString fun m v => { m with Timeframe := v }),
   (4, decodePointer fun m v => { m with Pagination := v })]

instance : Message GetCandlesRequest :=
  ⟨GetCandlesRequest.MarshalTo, unmarshal GetCandlesRequest.cases {}⟩

instance : Faithful GetCandlesRequest where
  returns m := Reads.scan_eq (by decide) <|
    .cons (.pointer rfl rfl) <| .cons (.string rfl rfl) <| .cons (.string rfl rfl) <|
    .cons (.pointer rfl rfl) .nil

/-- `contract.GetCandlesResponse`. -/
structure GetCandlesResponse where
  Candles : List (Option Candle) := []
  Page : Option Page := none

def GetCandlesResponse.MarshalTo (m : GetCandlesResponse) : List Write :=
  m.Candles.map (Write.pointer 1) ++
  [Write.pointer 2 m.Page]

def GetCandlesResponse.cases : List (Int64 × Handler GetCandlesResponse) :=
  [(1, appendMessage fun update m => { m with Candles := update m.Candles }),
   (2, decodePointer fun m v => { m with Page := v })]

instance : Message GetCandlesResponse :=
  ⟨GetCandlesResponse.MarshalTo, unmarshal GetCandlesResponse.cases {}⟩

/-- What is left of the message once it has been decoded. -/
def GetCandlesResponse.kept (m : GetCandlesResponse) : GetCandlesResponse :=
  { m with Candles := m.Candles.filter Option.isSome }

theorem GetCandlesResponse.returns (m : GetCandlesResponse) : Returns m m.kept :=
  Reads.scan_eq (by decide) <| .append
    (.messages rfl rfl (fun _ _ => rfl) rfl)
    (.cons (.pointer rfl rfl) .nil)

def GetCandlesResponse.Intact (m : GetCandlesResponse) : Prop := none ∉ m.Candles

theorem GetCandlesResponse.kept_eq_iff (m : GetCandlesResponse) : m.kept = m ↔ m.Intact := by
  cases m
  simp only [kept, Intact, mk.injEq, and_true, filter_isSome_eq_iff]

/-- `contract.ListSymbolsRequest`. -/
structure ListSymbolsRequest where
  ExchangeID : Option ExchangeId := none

def ListSymbolsRequest.MarshalTo (m : ListSymbolsRequest) : List Write := [.pointer 1 m.ExchangeID]

def ListSymbolsRequest.cases : List (Int64 × Handler ListSymbolsRequest) :=
  [(1, decodePointer fun m v => { m with ExchangeID := v })]

instance : Message ListSymbolsRequest :=
  ⟨ListSymbolsRequest.MarshalTo, unmarshal ListSymbolsRequest.cases {}⟩

instance : Faithful ListSymbolsRequest where
  returns m := Reads.scan_eq (by decide) (.cons (.pointer rfl rfl) .nil)

/-- `contract.ListSymbolsResponse`. -/
structure ListSymbolsResponse where
  Symbols : List (Option SymbolInfo) := []

def ListSymbolsResponse.MarshalTo (m : ListSymbolsResponse) : List Write :=
  m.Symbols.map (.pointer 1)

def ListSymbolsResponse.cases : List (Int64 × Handler ListSymbolsResponse) :=
  [(1, appendMessage fun update m => { m with Symbols := update m.Symbols })]

instance : Message ListSymbolsResponse :=
  ⟨ListSymbolsResponse.MarshalTo, unmarshal ListSymbolsResponse.cases {}⟩

/-- What is left of the message once it has been decoded. -/
def ListSymbolsResponse.kept (m : ListSymbolsResponse) : ListSymbolsResponse :=
  { m with Symbols := m.Symbols.filter Option.isSome }

theorem ListSymbolsResponse.returns (m : ListSymbolsResponse) : Returns m m.kept :=
  Reads.scan_eq (by decide) (.messages rfl rfl (fun _ _ => rfl) rfl)

def ListSymbolsResponse.Intact (m : ListSymbolsResponse) : Prop := none ∉ m.Symbols

theorem ListSymbolsResponse.kept_eq_iff (m : ListSymbolsResponse) : m.kept = m ↔ m.Intact := by
  cases m
  simp only [kept, Intact, mk.injEq, filter_isSome_eq_iff]

def marketMessages : List MessageType :=
  [.whole Ticker, .whole PriceLevel, ⟨OrderBook, OrderBook.Intact⟩, .whole PublicTrade,
   .whole OHLCV, .whole StreamSubscription,
   ⟨StreamMarketDataRequest, StreamMarketDataRequest.Intact⟩,
   ⟨MarketDataEvent, MarketDataEvent.Intact⟩, .whole Candle, .whole SymbolInfo,
   .whole FetchTickerRequest, .whole FetchTickerResponse, .whole FetchOrderBookRequest,
   ⟨FetchOrderBookResponse, FetchOrderBookResponse.Intact⟩, .whole GetCandlesRequest,
   ⟨GetCandlesResponse, GetCandlesResponse.Intact⟩, .whole ListSymbolsRequest,
   ⟨ListSymbolsResponse, ListSymbolsResponse.Intact⟩]

theorem marketMessages_roundTrip : ∀ k ∈ marketMessages, k.RoundTrips := by
  rw [← List.forall_iff_forall_mem]
  exact ⟨roundTrips_whole, roundTrips_whole,
    roundTrips_of_returns OrderBook.returns OrderBook.kept_eq_iff, roundTrips_whole,
    roundTrips_whole, roundTrips_whole,
    roundTrips_of_returns StreamMarketDataRequest.returns StreamMarketDataRequest.kept_eq_iff,
    roundTrips_of_returns MarketDataEvent.returns MarketDataEvent.kept_eq_iff, roundTrips_whole,
    roundTrips_whole, roundTrips_whole, roundTrips_whole, roundTrips_whole,
    roundTrips_of_returns FetchOrderBookResponse.returns FetchOrderBookResponse.kept_eq_iff,
    roundTrips_whole,
    roundTrips_of_returns GetCandlesResponse.returns GetCandlesResponse.kept_eq_iff,
    roundTrips_whole,
    roundTrips_of_returns ListSymbolsResponse.returns ListSymbolsResponse.kept_eq_iff⟩

end LongTrader.Sdk.Contract
