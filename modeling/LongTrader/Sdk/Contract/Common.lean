import LongTrader.Sdk.Message

/-! The messages that the others of the Go contract are made of: times, decimals, pages and
balances. A field called `Type` in the source is `Type'` here. -/

namespace LongTrader.Sdk.Contract

/-! The enumerations are open: every number of the type is a value. -/

abbrev OrderType := Int32
abbrev OrderSide := Int32
abbrev OrderStatus := Int32
abbrev TimeInForce := Int32
abbrev PositionSide := Int32
abbrev CloseReason := Int32
abbrev SessionState := Int32
abbrev LogLevel := Int32
abbrev StreamChannel := Int32
abbrev KillSwitchScope := Int32
abbrev TradeSide := Int32

/-- `contract.Timestamp`. -/
structure Timestamp where
  Seconds : Int64 := 0
  Nanos : Int32 := 0

def Timestamp.MarshalTo (m : Timestamp) : List Write := [.int64 1 m.Seconds, .int32 2 m.Nanos]

def Timestamp.cases : List (Int64 × Handler Timestamp) :=
  [(1, assign Field.AsInt64 fun m v => { m with Seconds := v }),
   (2, assign Field.AsInt32 fun m v => { m with Nanos := v })]

instance : Message Timestamp := ⟨Timestamp.MarshalTo, unmarshal Timestamp.cases {}⟩

instance : Faithful Timestamp where
  returns m := Reads.scan_eq (by decide) (.cons (.int64 rfl rfl) <| .cons (.int32 rfl rfl) .nil)

/-- `contract.decodeTime`. -/
def decodeTime {T : Type} (set : T → Option Timestamp → T) : Handler T := decodePointer set

/-- `contract.Duration`. -/
structure Duration where
  Seconds : Int64 := 0
  Nanos : Int32 := 0

def Duration.MarshalTo (m : Duration) : List Write := [.int64 1 m.Seconds, .int32 2 m.Nanos]

def Duration.cases : List (Int64 × Handler Duration) :=
  [(1, assign Field.AsInt64 fun m v => { m with Seconds := v }),
   (2, assign Field.AsInt32 fun m v => { m with Nanos := v })]

instance : Message Duration := ⟨Duration.MarshalTo, unmarshal Duration.cases {}⟩

instance : Faithful Duration where
  returns m := Reads.scan_eq (by decide) (.cons (.int64 rfl rfl) <| .cons (.int32 rfl rfl) .nil)

/-- `contract.Decimal`. -/
structure Decimal where
  Value : Bytes := []
  deriving DecidableEq

def Decimal.MarshalTo (m : Decimal) : List Write := [.string 1 m.Value]

def Decimal.cases : List (Int64 × Handler Decimal) :=
  [(1, assign Field.AsString fun m v => { m with Value := v })]

instance : Message Decimal := ⟨Decimal.MarshalTo, unmarshal Decimal.cases {}⟩

instance : Faithful Decimal where
  returns m := Reads.scan_eq (by decide) (.cons (.string rfl rfl) .nil)

/-- `contract.decodeDecimal`. -/
def decodeDecimal {T : Type} (set : T → Option Decimal → T) : Handler T := decodePointer set

/-- `contract.ExchangeId`. -/
structure ExchangeId where
  ID : Bytes := []
  Label : Bytes := []

def ExchangeId.MarshalTo (m : ExchangeId) : List Write := [.string 1 m.ID, .string 2 m.Label]

def ExchangeId.cases : List (Int64 × Handler ExchangeId) :=
  [(1, assign Field.AsString fun m v => { m with ID := v }),
   (2, assign Field.AsString fun m v => { m with Label := v })]

instance : Message ExchangeId := ⟨ExchangeId.MarshalTo, unmarshal ExchangeId.cases {}⟩

instance : Faithful ExchangeId where
  returns m := Reads.scan_eq (by decide) (.cons (.string rfl rfl) <| .cons (.string rfl rfl) .nil)

/-- `contract.Pagination`. -/
structure Pagination where
  Limit : UInt64 := 0
  Since : UInt64 := 0
  Cursor : Bytes := []

def Pagination.MarshalTo (m : Pagination) : List Write :=
  [.uint64 1 m.Limit, .uint64 2 m.Since, .string 3 m.Cursor]

def Pagination.cases : List (Int64 × Handler Pagination) :=
  [(1, assign Field.AsUint64 fun m v => { m with Limit := v }),
   (2, assign Field.AsUint64 fun m v => { m with Since := v }),
   (3, assign Field.AsString fun m v => { m with Cursor := v })]

instance : Message Pagination := ⟨Pagination.MarshalTo, unmarshal Pagination.cases {}⟩

instance : Faithful Pagination where
  returns m := Reads.scan_eq (by decide) <|
    .cons (.uint64 rfl rfl) <| .cons (.uint64 rfl rfl) <| .cons (.string rfl rfl) .nil

/-- `contract.Page`. -/
structure Page where
  NextCursor : Bytes := []
  Total : UInt32 := 0

def Page.MarshalTo (m : Page) : List Write := [.string 1 m.NextCursor, .uint32 2 m.Total]

def Page.cases : List (Int64 × Handler Page) :=
  [(1, assign Field.AsString fun m v => { m with NextCursor := v }),
   (2, assign Field.AsUint32 fun m v => { m with Total := v })]

instance : Message Page := ⟨Page.MarshalTo, unmarshal Page.cases {}⟩

instance : Faithful Page where
  returns m := Reads.scan_eq (by decide) (.cons (.string rfl rfl) <| .cons (.uint32 rfl rfl) .nil)

/-- `contract.EventHeader`. -/
structure EventHeader where
  TraceID : Bytes := []
  Sequence : UInt64 := 0
  ExchangeTimeNS : Int64 := 0
  GatewayInTimeNS : Int64 := 0
  LocalDispatchTimeNS : Int64 := 0

def EventHeader.MarshalTo (m : EventHeader) : List Write :=
  [.string 1 m.TraceID, .uint64 2 m.Sequence, .int64 3 m.ExchangeTimeNS,
   .int64 4 m.GatewayInTimeNS, .int64 5 m.LocalDispatchTimeNS]

def EventHeader.cases : List (Int64 × Handler EventHeader) :=
  [(1, assign Field.AsString fun m v => { m with TraceID := v }),
   (2, assign Field.AsUint64 fun m v => { m with Sequence := v }),
   (3, assign Field.AsInt64 fun m v => { m with ExchangeTimeNS := v }),
   (4, assign Field.AsInt64 fun m v => { m with GatewayInTimeNS := v }),
   (5, assign Field.AsInt64 fun m v => { m with LocalDispatchTimeNS := v })]

instance : Message EventHeader := ⟨EventHeader.MarshalTo, unmarshal EventHeader.cases {}⟩

instance : Faithful EventHeader where
  returns m := Reads.scan_eq (by decide) <|
    .cons (.string rfl rfl) <| .cons (.uint64 rfl rfl) <| .cons (.int64 rfl rfl) <|
    .cons (.int64 rfl rfl) <| .cons (.int64 rfl rfl) .nil

/-- `contract.Balance`. -/
structure Balance where
  Currency : Bytes := []
  Free : Decimal := {}
  Used : Decimal := {}
  Total : Decimal := {}

def Balance.MarshalTo (m : Balance) : List Write :=
  [.string 1 m.Currency, .value 2 m.Free, .value 3 m.Used, .value 4 m.Total]

def Balance.cases : List (Int64 × Handler Balance) :=
  [(1, assign Field.AsString fun m v => { m with Currency := v }),
   (2, decodeSub fun m v => { m with Free := v }),
   (3, decodeSub fun m v => { m with Used := v }),
   (4, decodeSub fun m v => { m with Total := v })]

instance : Message Balance := ⟨Balance.MarshalTo, unmarshal Balance.cases {}⟩

instance : Faithful Balance where
  returns m := Reads.scan_eq (by decide) <|
    .cons (.string rfl rfl) <| .cons (.value rfl) <| .cons (.value rfl) <| .cons (.value rfl) .nil

/-- `contract.AccountInfo`. -/
structure AccountInfo where
  ID : Bytes := []
  Type' : Bytes := []
  Code : Bytes := []
  Balances : List (Option Balance) := []

def AccountInfo.MarshalTo (m : AccountInfo) : List Write :=
  [Write.string 1 m.ID, .string 2 m.Type', .string 3 m.Code] ++
  m.Balances.map (Write.pointer 4)

def AccountInfo.cases : List (Int64 × Handler AccountInfo) :=
  [(1, assign Field.AsString fun m v => { m with ID := v }),
   (2, assign Field.AsString fun m v => { m with Type' := v }),
   (3, assign Field.AsString fun m v => { m with Code := v }),
   (4, appendMessage fun update m => { m with Balances := update m.Balances })]

instance : Message AccountInfo := ⟨AccountInfo.MarshalTo, unmarshal AccountInfo.cases {}⟩

/-- What is left of the message once it has been decoded. -/
def AccountInfo.kept (m : AccountInfo) : AccountInfo :=
  { m with Balances := m.Balances.filter Option.isSome }

theorem AccountInfo.returns (m : AccountInfo) : Returns m m.kept :=
  Reads.scan_eq (by decide) <| .append
    (.cons (.string rfl rfl) <| .cons (.string rfl rfl) <| .cons (.string rfl rfl) .nil)
    (.messages rfl rfl (fun _ _ => rfl) rfl)

def AccountInfo.Intact (m : AccountInfo) : Prop := none ∉ m.Balances

theorem AccountInfo.kept_eq_iff (m : AccountInfo) : m.kept = m ↔ m.Intact := by
  cases m
  simp only [kept, Intact, mk.injEq, true_and, filter_isSome_eq_iff]

/-- `contract.LedgerEntry`. -/
structure LedgerEntry where
  ID : Bytes := []
  Currency : Bytes := []
  Direction : Bytes := []
  Type' : Bytes := []
  Amount : Decimal := {}
  Timestamp : Option Timestamp := none
  Status : Bytes := []

def LedgerEntry.MarshalTo (m : LedgerEntry) : List Write :=
  [.string 1 m.ID, .string 2 m.Currency, .string 3 m.Direction, .string 4 m.Type',
   .value 5 m.Amount, .pointer 6 m.Timestamp, .string 7 m.Status]

def LedgerEntry.cases : List (Int64 × Handler LedgerEntry) :=
  [(1, assign Field.AsString fun m v => { m with ID := v }),
   (2, assign Field.AsString fun m v => { m with Currency := v }),
   (3, assign Field.AsString fun m v => { m with Direction := v }),
   (4, assign Field.AsString fun m v => { m with Type' := v }),
   (5, decodeSub fun m v => { m with Amount := v }),
   (6, decodePointer fun m v => { m with Timestamp := v }),
   (7, assign Field.AsString fun m v => { m with Status := v })]

instance : Message LedgerEntry := ⟨LedgerEntry.MarshalTo, unmarshal LedgerEntry.cases {}⟩

instance : Faithful LedgerEntry where
  returns m := Reads.scan_eq (by decide) <|
    .cons (.string rfl rfl) <| .cons (.string rfl rfl) <| .cons (.string rfl rfl) <|
    .cons (.string rfl rfl) <| .cons (.value rfl) <| .cons (.pointer rfl rfl) <|
    .cons (.string rfl rfl) .nil

def commonMessages : List MessageType :=
  [.whole Timestamp, .whole Duration, .whole Decimal, .whole ExchangeId, .whole Pagination,
   .whole Page, .whole EventHeader, .whole Balance, ⟨AccountInfo, AccountInfo.Intact⟩,
   .whole LedgerEntry]

theorem commonMessages_roundTrip : ∀ k ∈ commonMessages, k.RoundTrips := by
  rw [← List.forall_iff_forall_mem]
  exact ⟨roundTrips_whole, roundTrips_whole, roundTrips_whole, roundTrips_whole, roundTrips_whole,
    roundTrips_whole, roundTrips_whole, roundTrips_whole,
    roundTrips_of_returns AccountInfo.returns AccountInfo.kept_eq_iff, roundTrips_whole⟩

end LongTrader.Sdk.Contract
