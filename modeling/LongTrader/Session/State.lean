import LongTrader.Contract

/-! Session lifecycle states and their one-byte representation. -/

namespace LongTrader.Session

/-- Server-enforced session states mirroring `worker.v1.SessionState`. -/
inductive SessionState where
  | attached
  | syncing
  | active
  | killSwitchTripped
  | gracefulShutdown
  deriving DecidableEq, Repr

namespace SessionState

/-- The `#[repr(u8)]` discriminant. -/
def toU8 : SessionState → UInt8
  | attached => 1
  | syncing => 2
  | active => 3
  | killSwitchTripped => 4
  | gracefulShutdown => 5

def fromU8 (v : UInt8) : Option SessionState :=
  if v = 1 then some attached
  else if v = 2 then some syncing
  else if v = 3 then some active
  else if v = 4 then some killSwitchTripped
  else if v = 5 then some gracefulShutdown
  else none

/-- The terminal states are never resurrected. -/
def isTerminal : SessionState → Bool
  | killSwitchTripped | gracefulShutdown => true
  | attached | syncing | active => false

/-- The derived `Debug` rendering, which error texts quote. -/
def debug : SessionState → String
  | attached => "Attached"
  | syncing => "Syncing"
  | active => "Active"
  | killSwitchTripped => "KillSwitchTripped"
  | gracefulShutdown => "GracefulShutdown"

@[simp] theorem fromU8_toU8 (state : SessionState) : fromU8 state.toU8 = some state := by
  cases state <;> decide

/-- A byte that decodes is the discriminant of what it decodes to. -/
theorem toU8_of_fromU8 {v : UInt8} {state : SessionState} (decoded : fromU8 v = some state) :
    v = state.toU8 := by
  unfold fromU8 at decoded
  split_ifs at decoded
  all_goals
    obtain rfl := Option.some.inj decoded
    assumption

/-- The lifecycle graph: what a single transition may do. -/
inductive Edge : SessionState → SessionState → Prop where
  | beginReconcile : Edge attached syncing
  | completeReconcile : Edge syncing active
  | trip : Edge active killSwitchTripped
  | stop (live : state.isTerminal = false) : Edge state gracefulShutdown

theorem Edge.live {source target : SessionState} (edge : Edge source target) :
    source.isTerminal = false := by
  cases edge with
  | beginReconcile => rfl
  | completeReconcile => rfl
  | trip => rfl
  | stop live => exact live

theorem Edge.source_of_trip {source : SessionState} (edge : Edge source killSwitchTripped) :
    source = active := by
  cases edge
  rfl

end SessionState

end LongTrader.Session
