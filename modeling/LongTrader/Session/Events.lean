import LongTrader.Session.Plane

/-! The strategy event bus: publishing to the replay ring and the subscribers. -/

namespace LongTrader.Session

open Interleave

/-- The event as it is shared, carrying its number in the header and as cursor. -/
def stamp (event : StrategyEvent) (seq : Nat) : StrategyEvent :=
  { event with
    header := some { (event.header.getD default) with sequence := seq }
    resumeToken := toString seq }

@[simp] theorem stamp_sequence (event : StrategyEvent) (seq : Nat) :
    (stamp event seq).sequence = seq := rfl

@[simp] theorem stamp_event (event : StrategyEvent) (seq : Nat) :
    (stamp event seq).event = event.event := rfl

/-- `SessionHandle::publish`: number the event, then append it to the replay ring
under the ring lock, then fan it out to subscribers. -/
def publish (sid : String) (event : StrategyEvent) : Task StrategyEvent := do
  let seq ← perform (.nextSeq sid)
  let shared := stamp event seq
  perform (.lockRing sid)
  perform (.pushRing sid shared)
  perform (.send sid shared)
  return shared

/-- The event announcing one transition. -/
def stateChangeEvent (source target : SessionState) (reason : String) : StrategyEvent :=
  ⟨some default, some (.stateChange ⟨source, target, reason⟩), ""⟩

/-- `SessionManager::publish_state_change`. -/
def publishStateChange (sid : String) (source target : SessionState) (reason : String) :
    Task Unit := do
  let _ ← publish sid (stateChangeEvent source target reason)

/-- `SessionManager::report_log`. -/
def reportLog (sid : String) (level : LogLevel) (message : String)
    (fields : List (String × String)) : Task (Except ManagerError Unit) := do
  if ← perform (.get sid) then
    perform (.addLogEvent sid)
    let _ ← publish sid ⟨some default, some (.log ⟨sid, level, message, fields⟩), ""⟩
    return .ok ()
  else return .error (.notFound sid)

/-- `SessionHandle::replay_after`. -/
def replayAfter (sid : String) (afterSeq : Nat) : Task (List StrategyEvent) := do
  perform (.lockRing sid)
  let ring ← perform (.readRing sid)
  return ring.filter fun event => afterSeq < event.sequence

/-- The four actions of one `publish`, in their order. -/
theorem publish_completes {sid : String} {event shared : StrategyEvent} {acts : List (Act sig)} :
    (publish sid event).Completes acts shared ↔
      ∃ seq : Nat, shared = stamp event seq ∧
        acts = [⟨Op.nextSeq sid, seq⟩, ⟨Op.lockRing sid, ()⟩,
          ⟨Op.pushRing sid (stamp event seq), ()⟩, ⟨Op.send sid (stamp event seq), ()⟩] := by
  constructor
  · intro finishes
    obtain ⟨seq, rest, rfl, ⟨⟩, rest, rfl, ⟨⟩, rest, rfl, ⟨⟩, rest, rfl, rfl, rfl⟩ := finishes
    exact ⟨seq, rfl, rfl⟩
  · intro shape
    obtain ⟨seq, rfl, rfl⟩ := shape
    exact ⟨seq, _, rfl, (), _, rfl, (), _, rfl, (), _, rfl, rfl, rfl⟩

/-- The actions of one announced transition. -/
def announced (sid : String) (source target : SessionState) (reason : String) (seq : Nat) :
    List (Act sig) :=
  let shared := stamp (stateChangeEvent source target reason) seq
  [⟨Op.nextSeq sid, seq⟩, ⟨Op.lockRing sid, ()⟩, ⟨Op.pushRing sid shared, ()⟩,
    ⟨Op.send sid shared, ()⟩]

theorem publishStateChange_completes {sid : String} {source target : SessionState}
    {reason : String} {acts : List (Act sig)} {result : Unit}
    (finishes : (publishStateChange sid source target reason).Completes acts result) :
    ∃ seq, acts = announced sid source target reason seq := by
  obtain ⟨first, rest, shared, rfl, publishes, rfl, _⟩ := Proc.completes_bind.mp finishes
  obtain ⟨seq, rfl, rfl⟩ := publish_completes.mp publishes
  exact ⟨seq, by simp [announced]⟩

end LongTrader.Session
