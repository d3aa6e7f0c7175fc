import LongTrader.Session.Lifecycle

/-! The lease watchdog's operations on one session. -/

namespace LongTrader.Session

open Interleave

/-- What a kill-switch scope cancels. A refused cancel is logged, not returned. -/
def executeScope (manager : SessionManager) (sid : String) : Scope → Task Unit
  | .sessionOrders => do
    let _ ← cancelSessionOrders manager sid
  | .allOrders => do
    let _ ← perform (.cancelAllOrders manager.defaultExchange)
  | .unspecified | .none => return ()

/-- Lease expiry tripwire for one session: flip the state first, then execute the
configured kill-switch scope. -/
def tripKillSwitch (manager : SessionManager) (sid : String) : Task Unit := do
  match ← perform (.load sid) with
  | some .active =>
    match ← perform (.cas sid .active .killSwitchTripped) with
    | none => return ()
    | some prev =>
      perform (.markTerminal sid)
      publishStateChange sid prev .killSwitchTripped "lease expired"
      let policy ← perform (.readPolicy sid)
      executeScope manager sid policy.scope
  | _ => return ()

/-- `SessionManager::check_lease_expiry`, the owner of the expiry predicate. -/
def checkLeaseExpiry (manager : SessionManager) (sid : String) :
    Task (Except ManagerError Bool) := do
  if ← perform (.get sid) then
    let policy ← perform (.readPolicy sid)
    let expired ←
      if (← perform (.load sid)) = some .active then
        pure (decide (policy.leaseTimeout < (← perform (.lastSeenElapsedMs sid))))
      else pure false
    if expired then tripKillSwitch manager sid
    return .ok expired
  else return .error (.notFound sid)

end LongTrader.Session
