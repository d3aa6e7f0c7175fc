import LongTrader.Sdk.Contract.Trading
import LongTrader.Sdk.Contract.Market

/-! The worker messages of the Go contract: the session calls, and the events of the strategy
stream. -/

namespace LongTrader.Sdk.Contract

/-- `contract.KillSwitchPolicy`. -/
structure KillSwitchPolicy where
  LeaseTimeout : Option Duration := none
  Scope : KillSwitchScope := 0

def KillSwitchPolicy.MarshalTo (m : KillSwitchPolicy) : List Write :=
  [.pointer 1 m.LeaseTimeout, .int32 2 m.Scope]

def KillSwitchPolicy.cases : List (Int64 × Handler KillSwitchPolicy) :=
  [(1, decodePointer fun m v => { m with LeaseTimeout := v }),
   (2, assign Field.AsInt32 fun m v => { m with Scope := v })]

instance : Message KillSwitchPolicy :=
  ⟨KillSwitchPolicy.MarshalTo, unmarshal KillSwitchPolicy.cases {}⟩

instance : Faithful KillSwitchPolicy where
  returns m := Reads.scan_eq (by decide) (.cons (.pointer rfl rfl) <| .cons (.int32 rfl rfl) .nil)

/-- `contract.AttachSessionRequest`. -/
structure AttachSessionRequest where
  Token : Bytes := []
  ClientName : Bytes := []
  ClientVersion : Bytes := []
  Policy : Option KillSwitchPolicy := none
  SessionID : Bytes := []

def AttachSessionRequest.MarshalTo (m : AttachSessionRequest) : List Write :=
  [.string 1 m.Token, .string 2 m.ClientName, .string 3 m.ClientVersion, .pointer 4 m.Policy,
   .string 5 m.SessionID]

def AttachSessionRequest.cases : List (Int64 × Handler AttachSessionRequest) :=
  [(1, assign Field.AsString fun m v => { m with Token := v }),
   (2, assign Field.AsString fun m v => { m with ClientName := v }),
   (3, assign Field.AsString fun m v => { m with ClientVersion := v }),
   (4, decodePointer fun m v => { m with Policy := v }),
   (5, assign Field.AsString fun m v => { m with SessionID := v })]

instance : Message AttachSessionRequest :=
  ⟨AttachSessionRequest.MarshalTo, unmarshal AttachSessionRequest.cases {}⟩

instance : Faithful AttachSessionRequest where
  returns m := Reads.scan_eq (by decide) <|
    .cons (.string rfl rfl) <| .cons (.string rfl rfl) <| .cons (.string rfl rfl) <|
    .cons (.pointer rfl rfl) <| .cons (.string rfl rfl) .nil

/-- `contract.AttachSessionResponse`. -/
structure AttachSessionResponse where
  SessionID : Bytes := []
  HeartbeatIntervalMS : UInt32 := 0
  ServerTime : Option Timestamp := none
  Capabilities : List Bytes := []

def AttachSessionResponse.MarshalTo (m : AttachSessionResponse) : List Write :=
  [Write.string 1 m.SessionID, .uint32 2 m.HeartbeatIntervalMS, .pointer 3 m.ServerTime] ++
  m.Capabilities.map (Write.string 4)

def AttachSessionResponse.cases : List (Int64 × Handler AttachSessionResponse) :=
  [(1, assign Field.AsString fun m v => { m with SessionID := v }),
   (2, assign Field.AsUint32 fun m v => { m with HeartbeatIntervalMS := v }),
   (3, decodeTime fun m v => { m with ServerTime := v }),
   (4, appendString fun update m => { m with Capabilities := update m.Capabilities })]

instance : Message AttachSessionResponse :=
  ⟨AttachSessionResponse.MarshalTo, unmarshal AttachSessionResponse.cases {}⟩

/-- What is left of the message once it has been decoded. -/
def AttachSessionResponse.kept (m : AttachSessionResponse) : AttachSessionResponse :=
  { m with Capabilities := m.Capabilities.filter (· ≠ []) }

theorem AttachSessionResponse.returns (m : AttachSessionResponse) : Returns m m.kept :=
  Reads.scan_eq (by decide) <| .append
    (.cons (.string rfl rfl) <| .cons (.uint32 rfl rfl) <| .cons (.pointer rfl rfl) .nil)
    (.strings rfl rfl (fun _ _ => rfl) rfl)

def AttachSessionResponse.Intact (m : AttachSessionResponse) : Prop := [] ∉ m.Capabilities

theorem AttachSessionResponse.kept_eq_iff (m : AttachSessionResponse) : m.kept = m ↔ m.Intact := by
  cases m
  simp only [kept, Intact, mk.injEq, true_and, filter_nonempty_eq_iff]

/-- `contract.KeepAliveRequest`. -/
structure KeepAliveRequest where
  SessionID : Bytes := []
  ClientTimeNS : Int64 := 0

def KeepAliveRequest.MarshalTo (m : KeepAliveRequest) : List Write :=
  [.string 1 m.SessionID, .int64 2 m.ClientTimeNS]

def KeepAliveRequest.cases : List (Int64 × Handler KeepAliveRequest) :=
  [(1, assign Field.AsString fun m v => { m with SessionID := v }),
   (2, assign Field.AsInt64 fun m v => { m with ClientTimeNS := v })]

instance : Message KeepAliveRequest :=
  ⟨KeepAliveRequest.MarshalTo, unmarshal KeepAliveRequest.cases {}⟩

instance : Faithful KeepAliveRequest where
  returns m := Reads.scan_eq (by decide) (.cons (.string rfl rfl) <| .cons (.int64 rfl rfl) .nil)

/-- `contract.KeepAliveResponse`. -/
structure KeepAliveResponse where
  ServerTimeNS : Int64 := 0
  HeartbeatIntervalMS : UInt32 := 0

def KeepAliveResponse.MarshalTo (m : KeepAliveResponse) : List Write :=
  [.int64 1 m.ServerTimeNS, .uint32 2 m.HeartbeatIntervalMS]

def KeepAliveResponse.cases : List (Int64 × Handler KeepAliveResponse) :=
  [(1, assign Field.AsInt64 fun m v => { m with ServerTimeNS := v }),
   (2, assign Field.AsUint32 fun m v => { m with HeartbeatIntervalMS := v })]

instance : Message KeepAliveResponse :=
  ⟨KeepAliveResponse.MarshalTo, unmarshal KeepAliveResponse.cases {}⟩

instance : Faithful KeepAliveResponse where
  returns m := Reads.scan_eq (by decide) (.cons (.int64 rfl rfl) <| .cons (.uint32 rfl rfl) .nil)

/-- `contract.ReconcileStateRequest`. -/
structure ReconcileStateRequest where
  SessionID : Bytes := []

def ReconcileStateRequest.MarshalTo (m : ReconcileStateRequest) : List Write :=
  [.string 1 m.SessionID]

def ReconcileStateRequest.cases : List (Int64 × Handler ReconcileStateRequest) :=
  [(1, assign Field.AsString fun m v => { m with SessionID := v })]

instance : Message ReconcileStateRequest :=
  ⟨ReconcileStateRequest.MarshalTo, unmarshal ReconcileStateRequest.cases {}⟩

instance : Faithful ReconcileStateRequest where
  returns m := Reads.scan_eq (by decide) (.cons (.string rfl rfl) .nil)

/-- `contract.ReconcileStateResponse`. -/
structure ReconcileStateResponse where
  SnapshotSequence : UInt64 := 0
  SnapshotTime : Option Timestamp := none
  Balances : List (Option Balance) := []
  Positions : List (Option Position) := []
  OpenOrders : List (Option Order) := []

def ReconcileStateResponse.MarshalTo (m : ReconcileStateResponse) : List Write :=
  [Write.uint64 1 m.SnapshotSequence, .pointer 2 m.SnapshotTime] ++
  m.Balances.map (Write.pointer 3) ++
  m.Positions.map (Write.pointer 4) ++
  m.OpenOrders.map (Write.pointer 5)

def ReconcileStateResponse.cases : List (Int64 × Handler ReconcileStateResponse) :=
  [(1, assign Field.AsUint64 fun m v => { m with SnapshotSequence := v }),
   (2, decodeTime fun m v => { m with SnapshotTime := v }),
   (3, appendMessage fun update m => { m with Balances := update m.Balances }),
   (4, appendMessage fun update m => { m with Positions := update m.Positions }),
   (5, appendMessage fun update m => { m with OpenOrders := update m.OpenOrders })]

instance : Message ReconcileStateResponse :=
  ⟨ReconcileStateResponse.MarshalTo, unmarshal ReconcileStateResponse.cases {}⟩

/-- What is left of the message once it has been decoded. -/
def ReconcileStateResponse.kept (m : ReconcileStateResponse) : ReconcileStateResponse :=
  { m with
    Balances := m.Balances.filter Option.isSome
    Positions := m.Positions.filter Option.isSome
    OpenOrders := m.OpenOrders.filter Option.isSome }

theorem ReconcileStateResponse.returns (m : ReconcileStateResponse) : Returns m m.kept :=
  Reads.scan_eq (by decide) <| .append (.append (.append
    (.cons (.uint64 rfl rfl) <| .cons (.pointer rfl rfl) .nil)
    (.messages rfl rfl (fun _ _ => rfl) rfl))
    (.messages rfl rfl (fun _ _ => rfl) rfl))
    (.messages rfl rfl (fun _ _ => rfl) rfl)

def ReconcileStateResponse.Intact (m : ReconcileStateResponse) : Prop :=
  none ∉ m.Balances ∧ none ∉ m.Positions ∧ none ∉ m.OpenOrders

theorem ReconcileStateResponse.kept_eq_iff (m : ReconcileStateResponse) : m.kept = m ↔ m.Intact := by
  cases m
  simp only [kept, Intact, mk.injEq, true_and, filter_isSome_eq_iff]

/-- `contract.SetKillSwitchPolicyRequest`. -/
structure SetKillSwitchPolicyRequest where
  SessionID : Bytes := []
  Policy : Option KillSwitchPolicy := none

def SetKillSwitchPolicyRequest.MarshalTo (m : SetKillSwitchPolicyRequest) : List Write :=
  [.string 1 m.SessionID, .pointer 2 m.Policy]

def SetKillSwitchPolicyRequest.cases : List (Int64 × Handler SetKillSwitchPolicyRequest) :=
  [(1, assign Field.AsString fun m v => { m with SessionID := v }),
   (2, decodePointer fun m v => { m with Policy := v })]

instance : Message SetKillSwitchPolicyRequest :=
  ⟨SetKillSwitchPolicyRequest.MarshalTo, unmarshal SetKillSwitchPolicyRequest.cases {}⟩

instance : Faithful SetKillSwitchPolicyRequest where
  returns m := Reads.scan_eq (by decide) (.cons (.string rfl rfl) <| .cons (.pointer rfl rfl) .nil)

/-- `contract.SetKillSwitchPolicyResponse`. -/
structure SetKillSwitchPolicyResponse where

def SetKillSwitchPolicyResponse.MarshalTo (_ : SetKillSwitchPolicyResponse) : List Write := []

def SetKillSwitchPolicyResponse.cases : List (Int64 × Handler SetKillSwitchPolicyResponse) := []

instance : Message SetKillSwitchPolicyResponse :=
  ⟨SetKillSwitchPolicyResponse.MarshalTo, unmarshal SetKillSwitchPolicyResponse.cases {}⟩

instance : Faithful SetKillSwitchPolicyResponse where
  returns m := Reads.scan_eq (by decide) .nil

/-- `contract.RegisterStrategyRequest`. -/
structure RegisterStrategyRequest where
  SessionID : Bytes := []
  Name : Bytes := []
  Params : StringMap := .empty

def RegisterStrategyRequest.MarshalTo (m : RegisterStrategyRequest) : List Write :=
  [Write.string 1 m.SessionID, .string 2 m.Name] ++
  encodeMap 3 m.Params

def RegisterStrategyRequest.cases : List (Int64 × Handler RegisterStrategyRequest) :=
  [(1, assign Field.AsString fun m v => { m with SessionID := v }),
   (2, assign Field.AsString fun m v => { m with Name := v }),
   (3, decodeMapEntry 3 fun update m => { m with Params := update m.Params })]

instance : Message RegisterStrategyRequest :=
  ⟨RegisterStrategyRequest.MarshalTo, unmarshal RegisterStrategyRequest.cases {}⟩

instance : Faithful RegisterStrategyRequest where
  returns m :=
    Reads.scan_eq (by decide) <| .append
      (.cons (.string rfl rfl) <| .cons (.string rfl rfl) .nil)
      (.map rfl rfl (fun _ _ => rfl) rfl)

/-- `contract.RegisterStrategyResponse`. -/
structure RegisterStrategyResponse where
  StrategyID : Bytes := []

def RegisterStrategyResponse.MarshalTo (m : RegisterStrategyResponse) : List Write :=
  [.string 1 m.StrategyID]

def RegisterStrategyResponse.cases : List (Int64 × Handler RegisterStrategyResponse) :=
  [(1, assign Field.AsString fun m v => { m with StrategyID := v })]

instance : Message RegisterStrategyResponse :=
  ⟨RegisterStrategyResponse.MarshalTo, unmarshal RegisterStrategyResponse.cases {}⟩

instance : Faithful RegisterStrategyResponse where
  returns m := Reads.scan_eq (by decide) (.cons (.string rfl rfl) .nil)

/-- `contract.StrategyStatusRequest`. -/
structure StrategyStatusRequest where
  SessionID : Bytes := []

def StrategyStatusRequest.MarshalTo (m : StrategyStatusRequest) : List Write :=
  [.string 1 m.SessionID]

def StrategyStatusRequest.cases : List (Int64 × Handler StrategyStatusRequest) :=
  [(1, assign Field.AsString fun m v => { m with SessionID := v })]

instance : Message StrategyStatusRequest :=
  ⟨StrategyStatusRequest.MarshalTo, unmarshal StrategyStatusRequest.cases {}⟩

instance : Faithful StrategyStatusRequest where
  returns m := Reads.scan_eq (by decide) (.cons (.string rfl rfl) .nil)

/-- `contract.StrategyStatusResponse`. -/
structure StrategyStatusResponse where
  State : SessionState := 0
  StrategyID : Bytes := []
  Name : Bytes := []
  StartedAt : Option Timestamp := none
  OrdersSubmitted : UInt64 := 0
  LogEvents : UInt64 := 0

def StrategyStatusResponse.MarshalTo (m : StrategyStatusResponse) : List Write :=
  [.int32 2 m.State, .string 3 m.StrategyID, .string 4 m.Name, .pointer 5 m.StartedAt,
   .uint64 6 m.OrdersSubmitted, .uint64 7 m.LogEvents]

def StrategyStatusResponse.cases : List (Int64 × Handler StrategyStatusResponse) :=
  [(2, assign Field.AsInt32 fun m v => { m with State := v }),
   (3, assign Field.AsString fun m v => { m with StrategyID := v }),
   (4, assign Field.AsString fun m v => { m with Name := v }),
   (5, decodeTime fun m v => { m with StartedAt := v }),
   (6, assign Field.AsUint64 fun m v => { m with OrdersSubmitted := v }),
   (7, assign Field.AsUint64 fun m v => { m with LogEvents := v })]

instance : Message StrategyStatusResponse :=
  ⟨StrategyStatusResponse.MarshalTo, unmarshal StrategyStatusResponse.cases {}⟩

instance : Faithful StrategyStatusResponse where
  returns m := Reads.scan_eq (by decide) <|
    .cons (.int32 rfl rfl) <| .cons (.string rfl rfl) <| .cons (.string rfl rfl) <|
    .cons (.pointer rfl rfl) <| .cons (.uint64 rfl rfl) <| .cons (.uint64 rfl rfl) .nil

/-- `contract.StopStrategyRequest`. -/
structure StopStrategyRequest where
  SessionID : Bytes := []
  CancelOpenOrders : Bool := false

def StopStrategyRequest.MarshalTo (m : StopStrategyRequest) : List Write :=
  [.string 1 m.SessionID, .bool 2 m.CancelOpenOrders]

def StopStrategyRequest.cases : List (Int64 × Handler StopStrategyRequest) :=
  [(1, assign Field.AsString fun m v => { m with SessionID := v }),
   (2, assign Field.AsBool fun m v => { m with CancelOpenOrders := v })]

instance : Message StopStrategyRequest :=
  ⟨StopStrategyRequest.MarshalTo, unmarshal StopStrategyRequest.cases {}⟩

instance : Faithful StopStrategyRequest where
  returns m := Reads.scan_eq (by decide) (.cons (.string rfl rfl) <| .cons (.bool rfl rfl) .nil)

/-- `contract.StopStrategyResponse`. -/
structure StopStrategyResponse where
  FinalState : SessionState := 0

def StopStrategyResponse.MarshalTo (m : StopStrategyResponse) : List Write :=
  [.int32 1 m.FinalState]

def StopStrategyResponse.cases : List (Int64 × Handler StopStrategyResponse) :=
  [(1, assign Field.AsInt32 fun m v => { m with FinalState := v })]

instance : Message StopStrategyResponse :=
  ⟨StopStrategyResponse.MarshalTo, unmarshal StopStrategyResponse.cases {}⟩

instance : Faithful StopStrategyResponse where
  returns m := Reads.scan_eq (by decide) (.cons (.int32 rfl rfl) .nil)

/-- `contract.LogEvent`. -/
structure LogEvent where
  SessionID : Bytes := []
  Level : LogLevel := 0
  Message : Bytes := []
  Timestamp : Option Timestamp := none
  Fields : StringMap := .empty

def LogEvent.MarshalTo (m : LogEvent) : List Write :=
  [Write.string 1 m.SessionID, .int32 2 m.Level, .string 3 m.Message, .pointer 4 m.Timestamp] ++
  encodeMap 5 m.Fields

def LogEvent.cases : List (Int64 × Handler LogEvent) :=
  [(1, assign Field.AsString fun m v => { m with SessionID := v }),
   (2, assign Field.AsInt32 fun m v => { m with Level := v }),
   (3, assign Field.AsString fun m v => { m with Message := v }),
   (4, decodeTime fun m v => { m with Timestamp := v }),
   (5, decodeMapEntry 5 fun update m => { m with Fields := update m.Fields })]

instance : Message LogEvent := ⟨LogEvent.MarshalTo, unmarshal LogEvent.cases {}⟩

instance : Faithful LogEvent where
  returns m :=
    Reads.scan_eq (by decide) <| .append
      (.cons (.string rfl rfl) <| .cons (.int32 rfl rfl) <| .cons (.string rfl rfl) <|
       .cons (.pointer rfl rfl) .nil)
      (.map rfl rfl (fun _ _ => rfl) rfl)

/-- `contract.ReportLogResponse`. -/
structure ReportLogResponse where
  Accepted : UInt64 := 0

def ReportLogResponse.MarshalTo (m : ReportLogResponse) : List Write := [.uint64 1 m.Accepted]

def ReportLogResponse.cases : List (Int64 × Handler ReportLogResponse) :=
  [(1, assign Field.AsUint64 fun m v => { m with Accepted := v })]

instance : Message ReportLogResponse :=
  ⟨ReportLogResponse.MarshalTo, unmarshal ReportLogResponse.cases {}⟩

instance : Faithful ReportLogResponse where
  returns m := Reads.scan_eq (by decide) (.cons (.uint64 rfl rfl) .nil)

/-- `contract.StreamStrategyEventsRequest`. -/
structure StreamStrategyEventsRequest where
  SessionID : Bytes := []
  ResumeToken : Bytes := []

def StreamStrategyEventsRequest.MarshalTo (m : StreamStrategyEventsRequest) : List Write :=
  [.string 1 m.SessionID, .string 2 m.ResumeToken]

def StreamStrategyEventsRequest.cases : List (Int64 × Handler StreamStrategyEventsRequest) :=
  [(1, assign Field.AsString fun m v => { m with SessionID := v }),
   (2, assign Field.AsString fun m v => { m with ResumeToken := v })]

instance : Message StreamStrategyEventsRequest :=
  ⟨StreamStrategyEventsRequest.MarshalTo, unmarshal StreamStrategyEventsRequest.cases {}⟩

instance : Faithful StreamStrategyEventsRequest where
  returns m := Reads.scan_eq (by decide) (.cons (.string rfl rfl) <| .cons (.string rfl rfl) .nil)

/-- `contract.StateChange`. -/
structure StateChange where
  From : SessionState := 0
  To : SessionState := 0
  Reason : Bytes := []

def StateChange.MarshalTo (m : StateChange) : List Write :=
  [.int32 1 m.From, .int32 2 m.To, .string 3 m.Reason]

def StateChange.cases : List (Int64 × Handler StateChange) :=
  [(1, assign Field.AsInt32 fun m v => { m with From := v }),
   (2, assign Field.AsInt32 fun m v => { m with To := v }),
   (3, assign Field.AsString fun m v => { m with Reason := v })]

instance : Message StateChange := ⟨StateChange.MarshalTo, unmarshal StateChange.cases {}⟩

instance : Faithful StateChange where
  returns m := Reads.scan_eq (by decide) <|
    .cons (.int32 rfl rfl) <| .cons (.int32 rfl rfl) <| .cons (.string rfl rfl) .nil

/-- `contract.OrderUpdate`. -/
structure OrderUpdate where
  Order : Option Order := none
  UpdateType : Bytes := []

def OrderUpdate.MarshalTo (m : OrderUpdate) : List Write :=
  [.pointer 1 m.Order, .string 2 m.UpdateType]

def OrderUpdate.cases : List (Int64 × Handler OrderUpdate) :=
  [(1, decodePointer fun m v => { m with Order := v }),
   (2, assign Field.AsString fun m v => { m with UpdateType := v })]

instance : Message OrderUpdate := ⟨OrderUpdate.MarshalTo, unmarshal OrderUpdate.cases {}⟩

instance : Faithful OrderUpdate where
  returns m := Reads.scan_eq (by decide) (.cons (.pointer rfl rfl) <| .cons (.string rfl rfl) .nil)

/-- `contract.StrategyEvent`. -/
structure StrategyEvent where
  Header : Option EventHeader := none
  OrderUpdate : Option OrderUpdate := none
  BalanceUpdate : Option Balance := none
  PositionUpdate : Option Position := none
  TradeUpdate : Option Trade := none
  Log : Option LogEvent := none
  StateChange : Option StateChange := none
  Ticker : Option Ticker := none
  ResumeToken : Bytes := []

def StrategyEvent.MarshalTo (m : StrategyEvent) : List Write :=
  [.pointer 1 m.Header, .pointer 2 m.OrderUpdate, .pointer 3 m.BalanceUpdate,
   .pointer 4 m.PositionUpdate, .pointer 5 m.TradeUpdate, .pointer 6 m.Log,
   .pointer 7 m.StateChange, .pointer 8 m.Ticker, .string 9 m.ResumeToken]

def StrategyEvent.cases : List (Int64 × Handler StrategyEvent) :=
  [(1, decodePointer fun m v => { m with Header := v }),
   (2, decodePointer fun m v => { m with OrderUpdate := v }),
   (3, decodePointer fun m v => { m with BalanceUpdate := v }),
   (4, decodePointer fun m v => { m with PositionUpdate := v }),
   (5, decodePointer fun m v => { m with TradeUpdate := v }),
   (6, decodePointer fun m v => { m with Log := v }),
   (7, decodePointer fun m v => { m with StateChange := v }),
   (8, decodePointer fun m v => { m with Ticker := v }),
   (9, assign Field.AsString fun m v => { m with ResumeToken := v })]

instance : Message StrategyEvent := ⟨StrategyEvent.MarshalTo, unmarshal StrategyEvent.cases {}⟩

instance : Faithful StrategyEvent where
  returns m := Reads.scan_eq (by decide) <|
    .cons (.pointer rfl rfl) <| .cons (.pointer rfl rfl) <| .cons (.pointer rfl rfl) <|
    .cons (.pointer rfl rfl) <| .cons (.pointer rfl rfl) <| .cons (.pointer rfl rfl) <|
    .cons (.pointer rfl rfl) <| .cons (.pointer rfl rfl) <| .cons (.string rfl rfl) .nil

def workerMessages : List MessageType :=
  [.whole KillSwitchPolicy, .whole AttachSessionRequest,
   ⟨AttachSessionResponse, AttachSessionResponse.Intact⟩, .whole KeepAliveRequest,
   .whole KeepAliveResponse, .whole ReconcileStateRequest,
   ⟨ReconcileStateResponse, ReconcileStateResponse.Intact⟩, .whole SetKillSwitchPolicyRequest,
   .whole SetKillSwitchPolicyResponse, .whole RegisterStrategyRequest,
   .whole RegisterStrategyResponse, .whole StrategyStatusRequest, .whole StrategyStatusResponse,
   .whole StopStrategyRequest, .whole StopStrategyResponse, .whole LogEvent,
   .whole ReportLogResponse, .whole StreamStrategyEventsRequest, .whole StateChange,
   .whole OrderUpdate, .whole StrategyEvent]

theorem workerMessages_roundTrip : ∀ k ∈ workerMessages, k.RoundTrips := by
  rw [← List.forall_iff_forall_mem]
  exact ⟨roundTrips_whole, roundTrips_whole,
    roundTrips_of_returns AttachSessionResponse.returns AttachSessionResponse.kept_eq_iff,
    roundTrips_whole, roundTrips_whole, roundTrips_whole,
    roundTrips_of_returns ReconcileStateResponse.returns ReconcileStateResponse.kept_eq_iff,
    roundTrips_whole, roundTrips_whole, roundTrips_whole, roundTrips_whole, roundTrips_whole,
    roundTrips_whole, roundTrips_whole, roundTrips_whole, roundTrips_whole, roundTrips_whole,
    roundTrips_whole, roundTrips_whole, roundTrips_whole, roundTrips_whole⟩

end LongTrader.Sdk.Contract
