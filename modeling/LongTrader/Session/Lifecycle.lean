import LongTrader.Session.Events
import LongTrader.Session.Gate

/-! The lifecycle operations of a session: attach, reconcile and stop. -/

namespace LongTrader.Session

open Interleave

/-- Whether `attach` refuses the presented token. An empty expected token refuses
every caller; an absent one runs unauthenticated. -/
def SessionManager.refusesToken (manager : SessionManager) (token : String) : Bool :=
  match manager.expectedToken with
  | none => false
  | some expected => !(expected ≠ "" && expected = token)

def assertReconnectClient (quoted : String → String) (sid : String) (recorded offered : ClientIdentity) :
    Except ManagerError Unit :=
  let differs (known given : String) : Bool := known ≠ "" && given ≠ "" && known ≠ given
  let refusal (field known given : String) : ManagerError :=
    .invalidArgument ("session " ++ sid ++ " was attached by " ++ field ++ " " ++ quoted known ++
      "; " ++ quoted given ++ " may not reconnect to it")
  if differs recorded.name offered.name then
    .error (refusal "client_name" recorded.name offered.name)
  else if differs recorded.version offered.version then
    .error (refusal "client_version" recorded.version offered.version)
  else .ok ()

/-- The fresh branch of `attach_with_reconnect`. -/
def attachFresh (policy : Option KillSwitchPolicy) (client : ClientIdentity) :
    Task (Except ManagerError (String × Nat)) :=
  let applied : SessionPolicy × Except ManagerError Unit := match policy with
    | none => (default, .ok ())
    | some policy => applyPolicy default policy
  match applied with
  | (_, .error error) => return .error error
  | (sessionPolicy, .ok ()) => do
    let id ← perform (.insertSession sessionPolicy client)
    return .ok (id, DEFAULT_HEARTBEAT_MS)

/-- The reuse branch of `attach_with_reconnect`: identity, lease, policy. -/
def reconnect (quoted : String → String) (sid : String) (policy : Option KillSwitchPolicy) (client : ClientIdentity) :
    Task (Except ManagerError (String × Nat)) := do
  match ← perform (.load sid) with
  | some .killSwitchTripped | some .gracefulShutdown =>
    return .error (.invalidArgument
      ("session " ++ sid ++ " is terminal; attach a new session"))
  | some .attached | some .syncing | some .active =>
    let recorded ← perform (.readClient sid)
    match assertReconnectClient quoted sid recorded client with
    | .error error => return .error error
    | .ok () =>
      perform (.touch sid)
      let updated ← match policy with
        | none => pure (.ok ())
        | some policy => perform (.updatePolicy sid policy)
      match updated with
      | .error error => return .error error
      | .ok () =>
        let heartbeat ← perform (.heartbeatIntervalMs sid)
        return .ok (sid, heartbeat)
  | none => return .error (.invalidArgument ("session " ++ sid ++ " has an invalid state"))

def attachWithReconnect (manager : SessionManager) (token : String)
    (policy : Option KillSwitchPolicy) (reconnectSessionId : String) (client : ClientIdentity) :
    Task (Except ManagerError (String × Nat)) := do
  if manager.refusesToken token then return .error .unauthenticated
  else if reconnectSessionId = "" then attachFresh policy client
  else if ← perform (.get reconnectSessionId) then reconnect manager.quoted reconnectSessionId policy client
  else attachFresh policy client

def beginReconcile (sid : String) : Task (Except ManagerError Unit) := do
  if ← perform (.get sid) then
    match ← perform (.load sid) with
    | some .attached =>
      match ← perform (.cas sid .attached .syncing) with
      | some prev => publishStateChange sid prev .syncing "reconcile started"
      | none => pure ()
      return .ok ()
    | some .syncing | some .active => return .ok ()
    | some terminal => return .error (.invalidArgument
        ("session " ++ sid ++ " is " ++ terminal.debug ++
          "; cannot begin reconcile from a terminal state"))
    | none => return .error (.invalidArgument ("session " ++ sid ++ " has an invalid state"))
  else return .error (.notFound sid)

def completeReconcile (sid : String) (snapshotSequence : Nat) :
    Task (Except ManagerError Unit) := do
  if ← perform (.get sid) then
    perform (.fetchMaxSnapshotSeq sid snapshotSequence)
    match ← perform (.load sid) with
    | some .syncing =>
      match ← perform (.cas sid .syncing .active) with
      | some prev => publishStateChange sid prev .active "reconcile complete"
      | none => pure ()
      return .ok ()
    | some .active => return .ok ()
    | some other => return .error (.invalidArgument
        ("session " ++ sid ++ " is " ++ other.debug ++ "; complete_reconcile requires SYNCING"))
    | none => return .error (.invalidArgument ("session " ++ sid ++ " has an invalid state"))
  else return .error (.notFound sid)

def reportStop (sid : String) (failures : List String) :
    Task (Except ManagerError (Option SessionState)) := do
  let state ← perform (.load sid)
  if failures.isEmpty then return .ok state
  else return .error (.cancelsFailed sid state failures)

/-- The second half of `stop_session`, after the cancels: re-read the state, swap
it, and report. -/
def finishStop (sid : String) (failures : List String) :
    Task (Except ManagerError (Option SessionState)) := do
  match ← perform (.load sid) with
  | none => return .error (.invalidArgument ("session " ++ sid ++ " has an invalid state"))
  | some prev =>
    if prev.isTerminal then return .ok (some prev)
    else match ← perform (.cas sid prev .gracefulShutdown) with
      | none => reportStop sid failures
      | some prev =>
        perform (.markTerminal sid)
        publishStateChange sid prev .gracefulShutdown "stop requested"
        reportStop sid failures

def stopSession (manager : SessionManager) (sid : String) (cancelOpenOrders : Bool) :
    Task (Except ManagerError (Option SessionState)) := do
  if ← perform (.get sid) then
    let state ← perform (.load sid)
    if state.any SessionState.isTerminal then return .ok state
    else
      let failures ← if cancelOpenOrders then cancelSessionOrders manager sid else pure []
      finishStop sid failures
  else return .error (.notFound sid)

end LongTrader.Session
