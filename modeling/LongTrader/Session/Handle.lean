import LongTrader.Session.State

/-! One live session: state byte, lease bookkeeping, kill-switch policy, tracked
orders and the replayable event log. -/

namespace LongTrader.Session

/-- Default heartbeat interval negotiated at attach. -/
def DEFAULT_HEARTBEAT_MS : Nat := 10000

/-- Replay ring capacity per session. -/
def EVENT_RING_CAPACITY : Nat := 1024

/-- Slots of the broadcast channel behind `events_tx`. -/
def EVENT_CHANNEL_CAPACITY : Nat := 256

/-- The `Debug` rendering of `CANCEL_ROUND_TRIP_TIMEOUT`. -/
def CANCEL_ROUND_TRIP_TIMEOUT : String := "10s"

/-- Values of a `u64` counter. -/
def u64Size : Nat := 2 ^ 64

/-- `kill_switch_policy::Scope`. -/
inductive Scope where
  | unspecified
  | sessionOrders
  | allOrders
  | none
  deriving DecidableEq, Repr

/-- A scope as it arrives: a known value or an unrecognised discriminant. -/
inductive WireScope where
  | known (scope : Scope)
  | unknown (value : Int)
  deriving DecidableEq, Repr

/-- `google.protobuf.Duration`. -/
structure WireDuration where
  seconds : Int
  nanos : Int
  deriving DecidableEq, Repr

/-- `worker.v1.KillSwitchPolicy`. -/
structure KillSwitchPolicy where
  leaseTimeout : Option WireDuration
  scope : WireScope
  deriving DecidableEq, Repr

/-- Errors surfaced by the session manager. -/
inductive ManagerError where
  | notFound (sessionId : String)
  | unauthenticated
  | invalidArgument (message : String)
  | syncInProgress (sessionId : String) (state : Option SessionState)
  | cancelsFailed (sessionId : String) (state : Option SessionState) (failures : List String)
  | port (error : PortError)
  deriving DecidableEq, Repr

/-- Bounds of a session lease in milliseconds: 500ms to 3600s. -/
def MIN_LEASE : Nat := 500
def MAX_LEASE : Nat := 3600000

def fitsI64 (value : Int) : Bool := -(2 ^ 63) ≤ value && value < 2 ^ 63

/-- `i64::from(nanos) / 1_000_000` truncates toward zero. -/
def nanosToMillis (nanos : Int) : Int := nanos.tdiv 1000000

/-- Parse a wire duration into a bounded lease, in milliseconds. -/
def leaseTimeoutFromProto (timeout : WireDuration) : Except PortError Nat :=
  let scaled := timeout.seconds * 1000
  let millis := scaled + nanosToMillis timeout.nanos
  if !fitsI64 scaled || !fitsI64 millis then
    .error (.invalidArgument ("lease_timeout overflow: " ++ toString timeout.seconds ++ "s " ++
      toString timeout.nanos ++ "ns"))
  else if millis < 0 then
    .error (.invalidArgument ("lease_timeout must be >= 0, got " ++ toString millis ++ "ms"))
  else if millis.toNat < MIN_LEASE || MAX_LEASE < millis.toNat then
    .error (.invalidArgument ("lease_timeout " ++ toString millis.toNat ++
      "ms out of bounds [500ms, 3600s]"))
  else .ok millis.toNat

/-- Default lease: three heartbeat intervals, clamped into the bounds. -/
def defaultLease (heartbeatMs : Nat) : Nat :=
  max MIN_LEASE (min (min (heartbeatMs * 3) (u64Size - 1)) MAX_LEASE)

/-- Kill-switch configuration for one session; the lease is in milliseconds. -/
structure SessionPolicy where
  leaseTimeout : Nat
  scope : Scope
  deriving DecidableEq, Repr

instance : Inhabited SessionPolicy := ⟨⟨defaultLease DEFAULT_HEARTBEAT_MS, .sessionOrders⟩⟩

/-- Apply a wire policy onto a session policy. The source writes the lease into
the policy before it looks at the scope, so the policy after a refusal is part
of the answer. -/
def applyPolicy (current : SessionPolicy) (policy : KillSwitchPolicy) :
    SessionPolicy × Except ManagerError Unit :=
  let leased : Except PortError SessionPolicy := match policy.leaseTimeout with
    | none => .ok current
    | some timeout => (leaseTimeoutFromProto timeout).map fun lease =>
        { current with leaseTimeout := lease }
  match leased with
  | .error error => (current, .error (.invalidArgument error.display))
  | .ok current => match policy.scope with
    | .known .unspecified => (current, .ok ())
    | .known scope => ({ current with scope := scope }, .ok ())
    | .unknown value =>
      (current, .error (.invalidArgument
        ("unknown KillSwitchPolicy scope discriminant " ++ toString value)))

/-- The client identity presented at `AttachSession`. -/
structure ClientIdentity where
  name : String
  version : String
  deriving DecidableEq, Repr

inductive LogLevel where
  | unspecified
  | debug
  | info
  | warn
  | error
  deriving DecidableEq, Repr

structure LogEvent where
  sessionId : String
  level : LogLevel
  message : String
  fields : List (String × String)
  deriving DecidableEq, Repr

structure StateChange where
  source : SessionState
  target : SessionState
  reason : String
  deriving DecidableEq, Repr

/-- The payloads the worker itself publishes. -/
inductive EventKind where
  | log (event : LogEvent)
  | stateChange (change : StateChange)
  deriving DecidableEq, Repr

structure EventHeader where
  sequence : Nat
  deriving DecidableEq, Repr, Inhabited

/-- `worker.v1.StrategyEvent`. -/
structure StrategyEvent where
  header : Option EventHeader
  event : Option EventKind
  resumeToken : String
  deriving DecidableEq, Repr

/-- `event.header.sequence`: reading through an absent header gives the default. -/
def StrategyEvent.sequence (event : StrategyEvent) : Nat :=
  (event.header.getD default).sequence

/-- `SessionHandle`. Instants are nanoseconds of the tokio clock; `sent` lists
what was broadcast, so that a receiver is a position in it. -/
structure SessionHandle where
  id : String
  state : UInt8
  policy : SessionPolicy
  lastSeen : Nat
  heartbeatIntervalMs : Nat
  client : ClientIdentity
  sent : List StrategyEvent
  ring : List StrategyEvent
  ringLocked : Bool
  trackedCoids : List String
  ordersSubmitted : Nat
  logEvents : Nat
  seq : Nat
  snapshotSeq : Nat
  terminalAt : Option Nat
  deriving DecidableEq, Repr

/-- The handle that `attach` registers. -/
def SessionHandle.attach (id : String) (policy : SessionPolicy) (client : ClientIdentity)
    (now : Nat) : SessionHandle where
  id := id
  state := SessionState.attached.toU8
  policy := policy
  lastSeen := now
  heartbeatIntervalMs := DEFAULT_HEARTBEAT_MS
  client := client
  sent := []
  ring := []
  ringLocked := false
  trackedCoids := []
  ordersSubmitted := 0
  logEvents := 0
  seq := 0
  snapshotSeq := 0
  terminalAt := none

/-- Push to the replay ring, dropping the oldest event of a full one. -/
def pushTrim (ring : List StrategyEvent) (event : StrategyEvent) : List StrategyEvent :=
  (if EVENT_RING_CAPACITY ≤ ring.length then ring.drop 1 else ring) ++ [event]

/-- The critical section of `record_submitted_orders`: the tracked ids after it
and how many orders it attributed. -/
def trackOrders (tracked : List String) : List Order → List String × Nat
  | [] => (tracked, 0)
  | order :: rest =>
    if order.id = "" then trackOrders tracked rest
    else
      let (after, attributed) := trackOrders (tracked.insert order.id) rest
      (after, attributed + 1)

theorem mem_trackOrders {tracked : List String} {orders : List Order} {id : String} :
    id ∈ (trackOrders tracked orders).1 ↔
      id ∈ tracked ∨ ∃ order ∈ orders, order.id = id ∧ id ≠ "" := by
  induction orders generalizing tracked with
  | nil => simp [trackOrders]
  | cons order rest ih =>
    by_cases blank : order.id = ""
    · simp only [trackOrders, blank, if_true, ih, List.mem_cons, exists_eq_or_imp]
      constructor
      · rintro (old | later)
        · exact .inl old
        · exact .inr (.inr later)
      · rintro (old | ⟨rfl, nonempty⟩ | later)
        · exact .inl old
        · exact absurd rfl nonempty
        · exact .inr later
    · simp only [trackOrders, blank, if_false, ih, List.mem_insert_iff, List.mem_cons,
        exists_eq_or_imp]
      constructor
      · rintro ((rfl | old) | later)
        · exact .inr (.inl ⟨rfl, blank⟩)
        · exact .inl old
        · exact .inr (.inr later)
      · rintro (old | ⟨rfl, _⟩ | later)
        · exact .inl (.inr old)
        · exact .inl (.inl rfl)
        · exact .inr later

end LongTrader.Session
