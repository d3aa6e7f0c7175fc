import LongTrader.Session.Health
import LongTrader.Session.Proxy

/-! The session RPCs, and every call a client, the watchdog or the venue may make
on the control plane. -/

namespace LongTrader.Session

open Interleave

def keepAlive (sid : String) : Task (Except ManagerError Nat) := do
  if ← perform (.get sid) then
    perform (.touch sid)
    return .ok (← perform (.heartbeatIntervalMs sid))
  else return .error (.notFound sid)

def setKillSwitchPolicy (sid : String) (policy : Option KillSwitchPolicy) :
    Task (Except ManagerError Unit) := do
  if ← perform (.get sid) then
    match policy with
    | none => return .ok ()
    | some policy => perform (.updatePolicy sid policy)
  else return .error (.notFound sid)

def reconcileState (manager : SessionManager) (sid : String) :
    Task (Except ManagerError Nat) := do
  match ← beginReconcile sid with
  | .error error => return .error error
  | .ok () =>
    match ← perform (.syncState manager.defaultExchange) with
    | .error error => return .error (.port error)
    | .ok snapshotSequence =>
      match ← completeReconcile sid snapshotSequence with
      | .error error => return .error error
      | .ok () => return .ok snapshotSequence

/-- `str::parse::<u64>`: an optional plus sign and at least one digit, in range. -/
def parseU64 (text : String) : Option Nat :=
  let digits := match text.toList with
    | '+' :: rest => rest
    | chars => chars
  match digits with
  | [] => none
  | digits => (digitsValue 0 digits).filter (· < u64Size)

/-- The sequence a `resume_token` names; an empty token resumes from the start. -/
def afterSeq (resumeToken : String) : Option Nat :=
  if resumeToken = "" then some 0 else parseU64 resumeToken

inductive StreamError where
  | manager (error : ManagerError)
  | badResumeToken (token : String)
  deriving DecidableEq, Repr

def forwardReplay (watermark : Nat) : List StrategyEvent → Task Unit
  | [] => return ()
  | event :: rest => do
    if event.header.any fun header => watermark < header.sequence then
      forwardReplay watermark rest
    else
      perform (.forward event)
      forwardReplay watermark rest

/-- Forward live events from position `rx`, for as many polls as the consumer
makes. A lagging receiver ends the stream. -/
def forwardLive (sid : String) : Nat → Nat → Task Unit
  | _, 0 => return ()
  | rx, polls + 1 => do
    match ← perform (.recv sid rx) with
    | .event event =>
      perform (.forward event)
      forwardLive sid (rx + 1) polls
    | .lagged _ | .closed => return ()

/-- `WorkerSessionService::stream_strategy_events`: subscribe, read the watermark,
replay, then forward. -/
def streamStrategyEvents (sid resumeToken : String) (polls : Nat) :
    Task (Except StreamError Unit) := do
  if ← perform (.get sid) then
    match afterSeq resumeToken with
    | none => return .error (.badResumeToken resumeToken)
    | some after =>
      let rx ← perform (.subscribe sid)
      let watermark ← perform (.currentSeq sid)
      let replay ← replayAfter sid after
      forwardReplay watermark replay
      forwardLive sid rx polls
      return .ok ()
  else return .error (.manager (.notFound sid))

/-- One call on the control plane. The last two are moves of the environment: an
order leaving the venue's book, and the passing of time. -/
inductive Call where
  | attach (token : String) (policy : Option KillSwitchPolicy) (reconnectSessionId : String)
      (client : ClientIdentity)
  | keepAlive (sid : String)
  | setKillSwitchPolicy (sid : String) (policy : Option KillSwitchPolicy)
  | beginReconcile (sid : String)
  | completeReconcile (sid : String) (snapshotSequence : Nat)
  | reconcileState (sid : String)
  | stopSession (sid : String) (cancelOpenOrders : Bool)
  | checkLeaseExpiry (sid : String)
  | tripKillSwitch (sid : String)
  | createOrder (request : CreateOrderRequest)
  | createOrders (request : CreateOrdersRequest)
  | reportLog (sid : String) (level : LogLevel) (message : String)
      (fields : List (String × String))
  | publish (sid : String) (event : StrategyEvent)
  | stream (sid resumeToken : String) (polls : Nat)
  | venueClose (exchange : ExchangeId) (orderId : String)
  | timePasses (elapsed : Nat)

inductive Outcome where
  | attached (answer : Except ManagerError (String × Nat))
  | keptAlive (answer : Except ManagerError Nat)
  | policySet (answer : Except ManagerError Unit)
  | reconciled (answer : Except ManagerError Unit)
  | snapshot (answer : Except ManagerError Nat)
  | stopped (answer : Except ManagerError (Option SessionState))
  | leaseChecked (answer : Except ManagerError Bool)
  | tripped
  | ordered (answer : Except ProxyError Order)
  | batched (answer : Except ProxyError (List Order))
  | logged (answer : Except ManagerError Unit)
  | published (event : StrategyEvent)
  | streamed (answer : Except StreamError Unit)
  | moved

def Call.task (manager : SessionManager) : Call → Task Outcome
  | .attach token policy sid client =>
    .attached <$> attachWithReconnect manager token policy sid client
  | .keepAlive sid => .keptAlive <$> Session.keepAlive sid
  | .setKillSwitchPolicy sid policy => .policySet <$> Session.setKillSwitchPolicy sid policy
  | .beginReconcile sid => .reconciled <$> Session.beginReconcile sid
  | .completeReconcile sid snapshotSequence =>
    .reconciled <$> Session.completeReconcile sid snapshotSequence
  | .reconcileState sid => .snapshot <$> Session.reconcileState manager sid
  | .stopSession sid cancelOpenOrders => .stopped <$> Session.stopSession manager sid cancelOpenOrders
  | .checkLeaseExpiry sid => .leaseChecked <$> Session.checkLeaseExpiry manager sid
  | .tripKillSwitch sid => (fun _ => .tripped) <$> Session.tripKillSwitch manager sid
  | .createOrder request => .ordered <$> manager.tradingProxy.createOrder request
  | .createOrders request => .batched <$> manager.tradingProxy.createOrders request
  | .reportLog sid level message fields => .logged <$> Session.reportLog sid level message fields
  | .publish sid event => .published <$> Session.publish sid event
  | .stream sid resumeToken polls => .streamed <$> streamStrategyEvents sid resumeToken polls
  | .venueClose exchange orderId => (fun _ => .moved) <$> perform (.closeOrder exchange orderId)
  | .timePasses elapsed => (fun _ => .moved) <$> perform (.advanceClock elapsed)

def pool {ι : Type} (manager : SessionManager) (plane : Plane) (calls : ι → Call) :
    Config machine ι Outcome :=
  ⟨plane, fun task => (calls task).task manager⟩

def Plane.single (handle : SessionHandle) : Plane :=
  ⟨fun sid => if sid = handle.id then some handle else none, [handle.id], [], 0⟩

def SessionHandle.inState (state : SessionState) (tracked : List String) : SessionHandle :=
  { SessionHandle.attach "s1" default ⟨"", ""⟩ 0 with
    state := state.toU8, trackedCoids := tracked }

def mockManager : SessionManager := ⟨none, ⟨"mock", ""⟩, fun text => "\"" ++ text ++ "\""⟩

def mockOrder (id : String) : Order := ⟨id, "c-" ++ id, "BTC/USDT", .buy, some "1", some "1"⟩

def mockSubmission (exchangeId : Option ExchangeId) : CreateOrderRequest :=
  ⟨exchangeId, some ⟨"c-o2", "BTC/USDT", .buy, some "1", some "100"⟩, "s1"⟩

end LongTrader.Session
