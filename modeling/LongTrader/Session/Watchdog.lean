import LongTrader.Session.Health

/-! The partition tier of the watchdog: probe the gateway on every tick, count
consecutive misses, and trip every active session at the second one. -/

namespace LongTrader.Session

/-- Consecutive probe misses before the watchdog trips anything. -/
def HEALTH_PROBE_FAILURE_THRESHOLD : UInt32 := 2

def u32Max : UInt32 := 4294967295

/-- `u32::checked_add` and `u32::saturating_add` at one. -/
def checkedSucc (value : UInt32) : Option UInt32 :=
  if value = u32Max then none else some (value + 1)

def saturatingSucc (value : UInt32) : UInt32 :=
  if value = u32Max then u32Max else value + 1

/-- `gateway_health_check`: what `sync_state` answered within its budget, where
`none` is an elapsed budget. -/
def gatewayHealthCheck : Option (Except PortError Nat) → Except PortError Unit
  | none => .error (.transport "gateway health check timeout")
  | some (.error error) => .error error
  | some (.ok _) => .ok ()

/-- The loop of `note_health_probe` on a miss: the count it returns and the counter
it leaves. The compare-and-swap of a pass may be lost; each loss is one more pass. -/
def noteMiss (failures : UInt32) : (lost : Nat) → UInt32 × UInt32
  | lost + 1 => if failures = u32Max then (u32Max, failures) else noteMiss failures lost
  | 0 =>
    if failures = u32Max then (u32Max, failures)
    else match checkedSucc failures with
      | some next => (saturatingSucc failures, next)
      -- Only a saturated counter has no successor, and the next pass reads it so.
      | none => (u32Max, failures)

/-- `note_health_probe`: the consecutive misses this probe makes, and the counter
after it. -/
def noteHealthProbe (failures : UInt32) (probe : Except PortError Unit) (lost : Nat) :
    UInt32 × UInt32 :=
  match probe with
  | .ok () => (0, 0)
  | .error _ => noteMiss failures lost

/-- What one tick of the watchdog meets at its partition tier: the answer of the
gateway, the lost swaps of its counter, and the registry after the probe. -/
structure Tick where
  answer : Option (Except PortError Nat)
  lost : Nat
  sessions : List SessionHandle

def Tick.probe (tick : Tick) : Except PortError Unit := gatewayHealthCheck tick.answer

def Tick.failed (tick : Tick) : Bool := !tick.probe.isOk

/-- One job of the mass trip. -/
def tripJob (manager : SessionManager) (handle : SessionHandle) : Task Unit := do
  let _ ← perform (.readPolicy handle.id)
  tripKillSwitch manager handle.id

/-- The mass trip: one job for every session that is active. -/
def massTrip (manager : SessionManager) (sessions : List SessionHandle) : List (Task Unit) :=
  (sessions.filter fun handle => SessionState.fromU8 handle.state = some .active).map
    (tripJob manager)

/-- The partition tier of one pass of `watchdog_loop`: the counter it leaves and the
mass trip it starts, if any. -/
def partitionTier (manager : SessionManager) (failures : UInt32) (tick : Tick) :
    UInt32 × Option (List (Task Unit)) :=
  let (misses, counted) := noteHealthProbe failures tick.probe tick.lost
  let tripped := decide (HEALTH_PROBE_FAILURE_THRESHOLD ≤ misses)
  (counted, if tripped then some (massTrip manager tick.sessions) else none)

/-- The passes of `watchdog_loop`, each continuing with the counter that the last
one left: what each of them trips. -/
def watchdogLoop (manager : SessionManager) (failures : UInt32) :
    List Tick → List (Option (List (Task Unit)))
  | [] => []
  | tick :: rest =>
    let (counted, trip) := partitionTier manager failures tick
    trip :: watchdogLoop manager counted rest

end LongTrader.Session
