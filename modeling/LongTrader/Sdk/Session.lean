import LongTrader.Interleave.Expand
import LongTrader.Interleave.Rest
import LongTrader.Sdk.Contract.Worker
import LongTrader.Sdk.Presence

/-! The local session of the Go SDK. Its calls are tasks that touch it only under its lock and
through RPCs, so that calls of several goroutines interleave at these points; the host answers
as it likes, and the clock reads as it likes. -/

namespace LongTrader.Sdk.Go

open Interleave

/-- `session.Session`, as far as its calls read or write it. Times are nanoseconds. -/
structure Session where
  sessionID : Bytes
  state : String
  heartbeatIntervalMS : UInt32
  snapshotSequence : UInt64
  lastOK : Int
  leaseTripped : Bool
  deriving DecidableEq

def StateDisconnected : String := "DISCONNECTED"
def StateSyncing : String := "SYNCING"
def StateActive : String := "ACTIVE"
def StateKillSwitchTripped : String := "KILL_SWITCH_TRIPPED"
def StateGracefulShutdown : String := "GRACEFUL_SHUTDOWN"

def TerminalStates : List String := [StateKillSwitchTripped, StateGracefulShutdown]

def IsTerminal (state : String) : Bool := TerminalStates.contains state

def sessionStateNames : List String :=
  ["UNSPECIFIED", "ATTACHED", "SYNCING", "ACTIVE", "KILL_SWITCH_TRIPPED", "GRACEFUL_SHUTDOWN"]

/-- `SessionState.String`. -/
def stateName (state : Contract.SessionState) : String :=
  if state < 0 then "UNKNOWN(" ++ toString state.toInt ++ ")"
  else match sessionStateNames[state.toInt.toNat]? with
    | some name => name
    | none => "UNKNOWN(" ++ toString state.toInt ++ ")"

/-- `session.ConnectError`. -/
structure ConnectError where
  Status : Nat
  Code : String
  Message : String
  deriving DecidableEq

/-- What a call fails with. -/
inductive Failure where
  | connect (error : ConnectError)
  | build (error : BuildError)
  | other (message : String)
  deriving DecidableEq

/-- The RPCs of the calls, with their requests. -/
inductive Rpc where
  | keepAlive (request : Contract.KeepAliveRequest)
  | reconcileState (request : Contract.ReconcileStateRequest)
  | strategyStatus (request : Contract.StrategyStatusRequest)
  | stopStrategy (request : Contract.StopStrategyRequest)
  | createOrder (request : Contract.CreateOrderRequest)
  | createOrders (request : Contract.CreateOrdersRequest)

def Rpc.Response : Rpc → Type
  | .keepAlive _ => Contract.KeepAliveResponse
  | .reconcileState _ => Contract.ReconcileStateResponse
  | .strategyStatus _ => Contract.StrategyStatusResponse
  | .stopStrategy _ => Contract.StopStrategyResponse
  | .createOrder _ => Contract.CreateOrderResponse
  | .createOrders _ => Contract.CreateOrdersResponse

/-- The critical sections of the session's lock, the clock and the RPCs. -/
inductive Op where
  | sessionID
  | state
  | setState (state : String)
  | keptAlive (heartbeatIntervalMS : UInt32)
  | reconciled (snapshotSequence : UInt64)
  | checkLease (lease : Int)
  | timeNow
  | unary (rpc : Rpc)

def Op.Ans : Op → Type
  | .sessionID => Bytes
  | .state => String
  | .setState _ | .keptAlive _ | .reconciled _ => Unit
  | .checkLease _ => Bool × Bool
  | .timeNow => Int64
  | .unary rpc => Except Failure rpc.Response

abbrev sig : Signature := ⟨Op, Op.Ans⟩

abbrev Task (Result : Type) := Proc sig Result

abbrev perform (op : Op) : Task op.Ans := @Proc.perform sig op

/-- What the surroundings decide: what the clock reads and what the host replies. -/
structure Choice where
  now : Int
  reply : (rpc : Rpc) → Except Failure rpc.Response

/-- `time.Since`, which stops at the ends of its type. -/
def since (now earlier : Int) : Int := max (-2 ^ 63) (min (2 ^ 63 - 1) (now - earlier))

/-- The critical section of `checkLease`: whether the lease had tripped before, and whether it
has now. -/
def Session.checkLease (s : Session) (lease now : Int) : (Bool × Bool) × Session :=
  let alreadyTripped := s.leaseTripped
  let terminal := IsTerminal s.state
  let elapsed := since now s.lastOK
  let s := if !alreadyTripped && !terminal && lease < elapsed then
      { s with leaseTripped := true, state := StateKillSwitchTripped }
    else s
  ((alreadyTripped, s.leaseTripped), s)

def Session.exec (s : Session) : (op : Op) → Choice → op.Ans × Session
  | .sessionID, _ => (s.sessionID, s)
  | .state, _ => (if s.state = "" then StateDisconnected else s.state, s)
  | .setState state, _ => ((), { s with state := state })
  | .keptAlive heartbeat, choice => ((),
      { s with
        lastOK := choice.now
        heartbeatIntervalMS := if heartbeat ≠ 0 then heartbeat else s.heartbeatIntervalMS })
  | .reconciled sequence, _ => ((), { s with snapshotSequence := sequence, state := StateActive })
  | .checkLease lease, choice => s.checkLease lease choice.now
  | .timeNow, choice => (.ofInt choice.now, s)
  | .unary rpc, choice => (choice.reply rpc, s)

abbrev machine : Machine sig := ⟨Session, Choice, fun op choice s => some (s.exec op choice)⟩

/-- `Session.syncStateFromHost`. -/
def syncStateFromHost (state : Contract.SessionState) : Task Unit :=
  if state = 0 then pure () else perform (.setState (stateName state))

/-- `Session.KeepAlive`. -/
def KeepAlive : Task (Except Failure Contract.KeepAliveResponse) := do
  let sessionID ← perform .sessionID
  let now ← perform .timeNow
  match ← perform (.unary (.keepAlive { SessionID := sessionID, ClientTimeNS := now })) with
  | .error failure => pure (.error failure)
  | .ok resp => do
    perform (.keptAlive resp.HeartbeatIntervalMS)
    pure (.ok resp)

/-- `Session.ReconcileState`. -/
def ReconcileState : Task (Except Failure Contract.ReconcileStateResponse) := do
  perform (.setState StateSyncing)
  let sessionID ← perform .sessionID
  match ← perform (.unary (.reconcileState { SessionID := sessionID })) with
  | .error failure => pure (.error failure)
  | .ok resp => do
    perform (.reconciled resp.SnapshotSequence)
    pure (.ok resp)

/-- `Session.StrategyStatus`. -/
def StrategyStatus : Task (Except Failure Contract.StrategyStatusResponse) := do
  let sessionID ← perform .sessionID
  match ← perform (.unary (.strategyStatus { SessionID := sessionID })) with
  | .error failure => pure (.error failure)
  | .ok resp => do
    syncStateFromHost resp.State
    pure (.ok resp)

/-- `Session.StopStrategy`. -/
def StopStrategy (cancelOpenOrders : Bool) : Task (Except Failure Contract.StopStrategyResponse) := do
  let sessionID ← perform .sessionID
  match ← perform (.unary (.stopStrategy
      { SessionID := sessionID, CancelOpenOrders := cancelOpenOrders })) with
  | .error failure => pure (.error failure)
  | .ok resp => do
    syncStateFromHost resp.FinalState
    pure (.ok resp)

/-- `Session.checkLease`. -/
def checkLease (lease : Int) : Task Bool := do
  let (alreadyTripped, tripped) ← perform (.checkLease lease)
  if !tripped || alreadyTripped then pure false
  else do
    let _ ← StopStrategy true
    pure true

/-- What `requireActive` answers in a state that is not the active one. -/
def notActive (state : String) : Failure :=
  .connect ⟨412, "failed_precondition", "SYNC_IN_PROGRESS: local session is " ++ state ++
    ", not ACTIVE; call ReconcileState first"⟩

/-- `Session.requireActive`. -/
def requireActive : Task (Option Failure) := do
  let state : String ← perform .state
  pure (if state = StateActive then none else some (notActive state))

/-- `Session.CreateOrder`; the exchange is what its options choose. -/
def CreateOrder (spec : OrderSpec) (exchange : Option Contract.ExchangeId) :
    Task (Except Failure Contract.Order) := do
  match ← requireActive with
  | some failure => pure (.error failure)
  | none => match buildOrderRequest spec with
    | .error error => pure (.error (.build error))
    | .ok order => do
      let sessionID ← perform .sessionID
      match ← perform (.unary (.createOrder
          { ExchangeID := exchange, Order := some order, SessionID := sessionID })) with
      | .error failure => pure (.error failure)
      | .ok resp => match resp.Order with
        | none => pure (.error (.other "session: CreateOrder returned no order"))
        | some order => pure (.ok order)

/-- The requests of a batch, or the first of its errors. -/
def buildOrderRequests : List OrderSpec → Except BuildError (List Contract.OrderRequest)
  | [] => .ok []
  | spec :: rest => match buildOrderRequest spec with
    | .error error => .error error
    | .ok order => match buildOrderRequests rest with
      | .error error => .error error
      | .ok orders => .ok (order :: orders)

/-- `Session.CreateOrders`. -/
def CreateOrders (specs : List OrderSpec) (exchange : Option Contract.ExchangeId) :
    Task (Except Failure (List (Option Contract.Order))) := do
  match ← requireActive with
  | some failure => pure (.error failure)
  | none => match buildOrderRequests specs with
    | .error error => pure (.error (.build error))
    | .ok orders => do
      let sessionID ← perform .sessionID
      match ← perform (.unary (.createOrders
          { ExchangeID := exchange, Orders := orders.map some, SessionID := sessionID })) with
      | .error failure => pure (.error failure)
      | .ok resp => pure (.ok resp.Orders)

/-- What a goroutine calls. -/
inductive Call where
  | keepAlive
  | reconcileState
  | strategyStatus
  | stopStrategy (cancelOpenOrders : Bool)
  | checkLease (lease : Int)
  | createOrder (spec : OrderSpec) (exchange : Option Contract.ExchangeId)
  | createOrders (specs : List OrderSpec) (exchange : Option Contract.ExchangeId)

/-- What it gets. -/
inductive Outcome where
  | failed (failure : Failure)
  | keptAlive (resp : Contract.KeepAliveResponse)
  | reconciled (resp : Contract.ReconcileStateResponse)
  | status (resp : Contract.StrategyStatusResponse)
  | stopped (resp : Contract.StopStrategyResponse)
  | lease (tripped : Bool)
  | created (order : Contract.Order)
  | createdAll (orders : List (Option Contract.Order))

def outcome {α : Type} (wrap : α → Outcome) : Except Failure α → Outcome
  | .error failure => .failed failure
  | .ok value => wrap value

def Call.task : Call → Task Outcome
  | .keepAlive => outcome .keptAlive <$> KeepAlive
  | .reconcileState => outcome .reconciled <$> ReconcileState
  | .strategyStatus => outcome .status <$> StrategyStatus
  | .stopStrategy cancel => outcome .stopped <$> StopStrategy cancel
  | .checkLease lease => Outcome.lease <$> Go.checkLease lease
  | .createOrder spec exchange => outcome .created <$> CreateOrder spec exchange
  | .createOrders specs exchange => outcome .createdAll <$> CreateOrders specs exchange

/-- Whether a call submits orders. -/
def Call.orders : Call → Bool
  | .createOrder _ _ | .createOrders _ _ => true
  | _ => false

/-- The goroutines before their first step. -/
def calling {ι : Type} (calls : ι → Call) (s : Session) : Config machine ι Outcome :=
  ⟨s, fun task => (calls task).task⟩

end LongTrader.Sdk.Go
