import LongTrader.Session.Plane

/-! The session gate: which submissions may pass, which orders a session owns, and
how they are cancelled. -/

namespace LongTrader.Session

open Interleave

/-- `SessionManager`: the parts of the registry that never change, and the quoting of `{:?}`. -/
structure SessionManager where
  expectedToken : Option String
  defaultExchange : ExchangeId
  quoted : String → String

/-- Gate a session-scoped order submission. `ok none` is an unscoped operator
call, `ok (some sid)` the handle to attribute the orders to. -/
def authorizeOrderSubmission (sid : String) : Task (Except ManagerError (Option String)) := do
  if sid = "" then return .ok none
  else if ← perform (.get sid) then
    if (← perform (.load sid)) = some .active then return .ok (some sid)
    else return .error (.syncInProgress sid (← perform (.load sid)))
  else return .error (.notFound sid)

def recordSubmittedOrders (sid : String) (orders : List Order) : Task Unit := do
  let attributed ← perform (.trackOrders sid orders)
  perform (.addOrdersSubmitted sid attributed)

def CancelOutcome.failure (orderId : String) : CancelOutcome → Option String
  | .cancelled => none
  | .refused error => some (orderId ++ ": " ++ error.display)
  | .elapsed => some (orderId ++ ": cancel timed out after " ++ CANCEL_ROUND_TRIP_TIMEOUT)

def cancelCall : Act sig → Option (ExchangeId × String)
  | ⟨.cancelOrder exchange orderId, _⟩ => some (exchange, orderId)
  | _ => none

/-- Cancel the given venue order ids and collect the failures in their order. The
source runs the cancels concurrently; no task observes a cancel in flight, so
issuing them one by one in the iteration order leaves the same histories. -/
def cancelCoids (manager : SessionManager) : List String → Task (List String)
  | [] => return []
  | coid :: rest => do
    let outcome ← perform (.cancelOrder manager.defaultExchange coid)
    let failures ← cancelCoids manager rest
    return (outcome.failure coid).toList ++ failures

def cancelSessionOrders (manager : SessionManager) (sid : String) : Task (List String) := do
  let coids ← perform (.trackedOrders sid)
  cancelCoids manager coids

def cancellable (orders : List Order) : List String :=
  (orders.map (·.id)).filter (· ≠ "")

def unwindLateSubmissions (manager : SessionManager) (sid : String) (orders : List Order) :
    Task Unit := do
  if orders.isEmpty then return ()
  else if (← perform (.load sid)).any SessionState.isTerminal then
    let _ ← cancelCoids manager (cancellable orders)
  else return ()

/-- The gate lets through operator calls, and calls of an existing session that
was active when it was looked at. -/
theorem authorizeOrderSubmission_passes {sid : String} {session : Option String}
    {acts : List (Act sig)}
    (finishes : (authorizeOrderSubmission sid).Completes acts (.ok session)) :
    (sid = "" ∧ session = none ∧ acts = []) ∨
      (sid ≠ "" ∧ session = some sid ∧
        acts = [⟨Op.get sid, true⟩, ⟨Op.load sid, some .active⟩]) := by
  unfold authorizeOrderSubmission at finishes
  split at finishes
  · rename_i blank
    obtain ⟨rfl, same⟩ := finishes
    exact .inl ⟨blank, (Except.ok.inj same).symm, rfl⟩
  · rename_i named
    obtain ⟨registered, rest, rfl, continues⟩ := Proc.completes_perform_bind.mp finishes
    split at continues
    · rename_i present
      obtain ⟨state, rest, rfl, decides⟩ := Proc.completes_perform_bind.mp continues
      split at decides
      · rename_i active
        obtain ⟨rfl, same⟩ := decides
        refine .inr ⟨named, (Except.ok.inj same).symm, ?_⟩
        rw [present, active]
      · obtain ⟨again, rest, rfl, _, refused⟩ := Proc.completes_perform_bind.mp decides
        cases refused
    · cases continues.2

theorem cancelCoids_completes {manager : SessionManager} {coids failures : List String}
    {acts : List (Act sig)} (finishes : (cancelCoids manager coids).Completes acts failures) :
    ∃ outcomes : List (String × CancelOutcome), outcomes.map Prod.fst = coids ∧
      acts = outcomes.map (fun row => ⟨Op.cancelOrder manager.defaultExchange row.1, row.2⟩) ∧
      failures = outcomes.filterMap (fun row => row.2.failure row.1) := by
  induction coids generalizing acts failures with
  | nil =>
    obtain ⟨rfl, rfl⟩ := finishes
    exact ⟨[], rfl, rfl, rfl⟩
  | cons coid rest ih =>
    obtain ⟨outcome, tail, rfl, continues⟩ := Proc.completes_perform_bind.mp finishes
    obtain ⟨first, last, others, rfl, cancels, ends⟩ := Proc.completes_bind.mp continues
    obtain ⟨rfl, rfl⟩ := ends
    obtain ⟨outcomes, named, rfl, rfl⟩ := ih cancels
    refine ⟨(coid, outcome) :: outcomes, by simp [named], by simp, ?_⟩
    cases failed : CancelOutcome.failure coid outcome <;> simp [failed]

theorem cancelSessionOrders_completes {manager : SessionManager} {sid : String}
    {failures : List String} {acts : List (Act sig)}
    (finishes : (cancelSessionOrders manager sid).Completes acts failures) :
    ∃ outcomes : List (String × CancelOutcome),
      acts = ⟨Op.trackedOrders sid, outcomes.map Prod.fst⟩ ::
        outcomes.map (fun row => ⟨Op.cancelOrder manager.defaultExchange row.1, row.2⟩) ∧
      failures = outcomes.filterMap (fun row => row.2.failure row.1) := by
  obtain ⟨coids, rest, rfl, cancels⟩ := Proc.completes_perform_bind.mp finishes
  obtain ⟨outcomes, rfl, rfl, rfl⟩ := cancelCoids_completes cancels
  exact ⟨outcomes, rfl, rfl⟩

end LongTrader.Session
