import LongTrader.Session.Transitions

/-! The way of an order submission through gate, venue, attribution and unwind, and
the growth of a session's tracked set. -/

namespace LongTrader.Session

open Interleave

/-- Attribution of `orders` to `sid` and the re-check that follows it. -/
inductive Attribution (manager : SessionManager) (sid : String) (orders : List Order) :
    List (Act sig) → Prop where
  | nothing (attributed : Nat) (none : orders = []) :
      Attribution manager sid orders
        [⟨Op.trackOrders sid orders, attributed⟩, ⟨Op.addOrdersSubmitted sid attributed, ()⟩]
  | stillOpen (attributed : Nat) (state : Option SessionState)
      (live : state.any SessionState.isTerminal = false) :
      Attribution manager sid orders
        [⟨Op.trackOrders sid orders, attributed⟩, ⟨Op.addOrdersSubmitted sid attributed, ()⟩,
          ⟨Op.load sid, state⟩]
  | unwound (attributed : Nat) (state : SessionState) (terminal : state.isTerminal = true)
      (outcomes : List (String × CancelOutcome)) (named : outcomes.map Prod.fst = cancellable orders) :
      Attribution manager sid orders
        ([⟨Op.trackOrders sid orders, attributed⟩, ⟨Op.addOrdersSubmitted sid attributed, ()⟩,
          ⟨Op.load sid, some state⟩] ++
          outcomes.map fun row => ⟨Op.cancelOrder manager.defaultExchange row.1, row.2⟩)

theorem attributeOrders_completes {manager : SessionManager} {sid : String} {orders : List Order}
    {acts : List (Act sig)} {result : Unit}
    (finishes : (attributeOrders (some manager) (some sid) orders).Completes acts result) :
    Attribution manager sid orders acts := by
  obtain ⟨first, rest, ⟨⟩, rfl, records, unwinds⟩ := Proc.completes_bind.mp finishes
  obtain ⟨attributed, tail, rfl, adds⟩ := Proc.completes_perform_bind.mp records
  obtain ⟨⟨⟩, tail, rfl, rfl, _⟩ := adds
  unfold unwindLateSubmissions at unwinds
  split at unwinds
  · rename_i empty
    obtain ⟨rfl, _⟩ := unwinds
    exact .nothing attributed (by simpa using empty)
  · obtain ⟨state, tail, rfl, decides⟩ := Proc.completes_perform_bind.mp unwinds
    split at decides
    · rename_i closed
      obtain ⟨value, rfl, terminal⟩ := (Option.any_eq_true _ _).mp closed
      obtain ⟨cancels, tail, failures, rfl, issues, rfl, _⟩ := Proc.completes_bind.mp decides
      obtain ⟨outcomes, named, rfl, _⟩ := cancelCoids_completes issues
      simpa using Attribution.unwound attributed value terminal outcomes named
    · rename_i live
      obtain ⟨rfl, _⟩ := decides
      exact .stillOpen attributed state (by simpa using live)

/-- The gate of a session that lets a submission through. -/
def gateActs (sid : String) : List (Act sig) := [⟨Op.get sid, true⟩, ⟨Op.load sid, some .active⟩]

/-- A gate that refuses has only looked at the session. -/
def GateRefusal (sid : String) (acts : List (Act sig)) : Prop :=
  ∀ act ∈ acts, act.op = .get sid ∨ act.op = .load sid

/-- The ways of a session's single submission. -/
inductive CreatePath (manager : SessionManager) (request : CreateOrderRequest) :
    List (Act sig) → Prop where
  | refused (refusal : GateRefusal request.sessionId acts) : CreatePath manager request acts
  | failed (error : PortError) :
      CreatePath manager request (gateActs request.sessionId ++
        [⟨Op.createOrder (routeOrder manager.defaultExchange request), .error error⟩])
  | placed (order : Order) (attribution : Attribution manager request.sessionId [order] tail) :
      CreatePath manager request (gateActs request.sessionId ++
        ⟨Op.createOrder (routeOrder manager.defaultExchange request), .ok order⟩ :: tail)

/-- The orders that the recovery of a failed batch takes for its own. -/
def recovered (request : CreateOrdersRequest) (orders : List Order) : List Order :=
  orders.filter fun order =>
    decide (order.clientOrderId ∈ (request.orders.map (·.clientOrderId)).filter (· ≠ ""))

/-- The exchange a batch request is sent to. -/
def batchExchange (manager : SessionManager) (request : CreateOrdersRequest) : ExchangeId :=
  resolvedExchange request.exchangeId manager.defaultExchange

/-- The ways of a session's batch submission. -/
inductive BatchPath (manager : SessionManager) (request : CreateOrdersRequest) :
    List (Act sig) → Prop where
  | refused (refusal : GateRefusal request.sessionId acts) : BatchPath manager request acts
  | placed (orders : List Order) (attribution : Attribution manager request.sessionId orders tail) :
      BatchPath manager request (gateActs request.sessionId ++
        ⟨Op.createOrders (routeOrders manager.defaultExchange request), .ok orders⟩ :: tail)
  | unknown (error failure : PortError)
      (attribution : Attribution manager request.sessionId [] tail) :
      BatchPath manager request (gateActs request.sessionId ++
        ⟨Op.createOrders (routeOrders manager.defaultExchange request), .error error⟩ ::
          ⟨Op.fetchOpenOrders (batchExchange manager request), .error failure⟩ :: tail)
  | recovered (error : PortError) (orders : List Order)
      (attribution : Attribution manager request.sessionId (recovered request orders) tail) :
      BatchPath manager request (gateActs request.sessionId ++
        ⟨Op.createOrders (routeOrders manager.defaultExchange request), .error error⟩ ::
          ⟨Op.fetchOpenOrders (batchExchange manager request), .ok orders⟩ :: tail)

theorem authorizeOrderSubmission_refuses {sid : String} {error : ManagerError}
    {acts : List (Act sig)}
    (finishes : (authorizeOrderSubmission sid).Completes acts (.error error)) :
    GateRefusal sid acts := by
  have within : (authorizeOrderSubmission sid).Within {op | op = Op.get sid ∨ op = Op.load sid} := by
    unfold authorizeOrderSubmission
    split
    · trivial
    · refine .act (.inl rfl) fun registered => ?_
      split
      · refine .act (.inr rfl) fun state => ?_
        split
        · trivial
        · exact .act (.inr rfl) fun _ => trivial
      · trivial
  exact within.mem (Proc.path_done_iff.mpr finishes)

theorem createOrder_completes {manager : SessionManager} {request : CreateOrderRequest}
    {acts : List (Act sig)} {result : Except ProxyError Order} (named : request.sessionId ≠ "")
    (finishes : (manager.tradingProxy.createOrder request).Completes acts result) :
    CreatePath manager request acts := by
  obtain ⟨first, rest, gated, rfl, gates, continues⟩ := Proc.completes_bind.mp finishes
  cases gated with
  | error error =>
    obtain ⟨rfl, _⟩ := continues
    rw [List.append_nil]
    exact .refused (authorizeOrderSubmission_refuses gates)
  | ok session =>
    rcases authorizeOrderSubmission_passes gates with ⟨blank, _⟩ | ⟨_, rfl, rfl⟩
    · exact absurd blank named
    · obtain ⟨answer, tail, rfl, attributes⟩ := Proc.completes_perform_bind.mp continues
      cases answer with
      | error error =>
        obtain ⟨rfl, _⟩ := attributes
        exact .failed error
      | ok order =>
        obtain ⟨tracks, tail, _, rfl, attributed, rfl, _⟩ := Proc.completes_bind.mp attributes
        rw [List.append_nil]
        exact .placed order (attributeOrders_completes attributed)

theorem createOrders_completes {manager : SessionManager} {request : CreateOrdersRequest}
    {acts : List (Act sig)} {result : Except ProxyError (List Order)}
    (named : request.sessionId ≠ "")
    (finishes : (manager.tradingProxy.createOrders request).Completes acts result) :
    BatchPath manager request acts := by
  obtain ⟨first, rest, gated, rfl, gates, continues⟩ := Proc.completes_bind.mp finishes
  cases gated with
  | error error =>
    obtain ⟨rfl, _⟩ := continues
    rw [List.append_nil]
    exact .refused (authorizeOrderSubmission_refuses gates)
  | ok session =>
    rcases authorizeOrderSubmission_passes gates with ⟨blank, _⟩ | ⟨_, rfl, rfl⟩
    · exact absurd blank named
    · obtain ⟨answer, tail, rfl, attributes⟩ := Proc.completes_perform_bind.mp continues
      cases answer with
      | ok orders =>
        obtain ⟨tracks, tail, _, rfl, attributed, rfl, _⟩ := Proc.completes_bind.mp attributes
        rw [List.append_nil]
        exact .placed orders (attributeOrders_completes attributed)
      | error error =>
        obtain ⟨queries, tail, accepted, rfl, recovers, ends⟩ := Proc.completes_bind.mp attributes
        obtain ⟨tracks, tail, _, rfl, attributed, rfl, _⟩ := Proc.completes_bind.mp ends
        have attribution := attributeOrders_completes attributed
        obtain ⟨answer, tail, rfl, filters⟩ := Proc.completes_perform_bind.mp recovers
        cases answer with
        | error failure =>
          obtain ⟨rfl, rfl⟩ := filters
          rw [List.append_nil]
          exact BatchPath.unknown error failure attribution
        | ok orders =>
          obtain ⟨rfl, rfl⟩ := filters
          rw [List.append_nil]
          exact BatchPath.recovered error orders attribution

/-- The orders that an answer of the venue reports back to a submission. -/
def reportedOrders (call : Call) : Act sig → List Order
  | ⟨.createOrder _, .ok order⟩ => [order]
  | ⟨.createOrders _, .ok orders⟩ => orders
  | ⟨.fetchOpenOrders _, .ok orders⟩ => match call with
    | .createOrders request => recovered request orders
    | _ => []
  | _ => []

private theorem attribution_reports {manager : SessionManager} {sid : String} {call : Call}
    {orders : List Order} {acts : List (Act sig)} (attribution : Attribution manager sid orders acts) :
    acts.flatMap (reportedOrders call) = [] := by
  cases attribution with
  | nothing attributed none => rfl
  | stillOpen attributed state live => rfl
  | unwound attributed state terminal outcomes named =>
    apply List.flatMap_eq_nil_iff.mpr
    intro act member
    rcases List.mem_append.mp member with early | cancel
    · simp only [List.mem_cons, List.not_mem_nil, or_false] at early
      rcases early with rfl | rfl | rfl
      all_goals rfl
    · obtain ⟨row, _, rfl⟩ := List.mem_map.mp cancel
      rfl

private theorem refusal_reports {sid : String} {call : Call} {acts : List (Act sig)}
    (refusal : GateRefusal sid acts) : acts.flatMap (reportedOrders call) = [] := by
  apply List.flatMap_eq_nil_iff.mpr
  intro act member
  obtain ⟨op, ans⟩ := act
  rcases refusal _ member with looked | looked
  · obtain rfl := looked
    rfl
  · obtain rfl := looked
    rfl

private theorem attributes_after {manager : SessionManager} {sid : String} {call : Call}
    {orders : List Order} {front tail : List (Act sig)}
    (attribution : Attribution manager sid orders tail)
    (reports : front.flatMap (reportedOrders call) = orders) :
    ∃ first last, front ++ tail = first ++ last ∧
      Attribution manager sid ((front ++ tail).flatMap (reportedOrders call)) last := by
  refine ⟨front, tail, rfl, ?_⟩
  rw [List.flatMap_append, attribution_reports attribution, reports, List.append_nil]
  exact attribution

/-- A finished submission attributed whatever the venue reported to it. -/
theorem submission_attributes {manager : SessionManager} {sid : String} {call : Call}
    {acts : List (Act sig)} {result : Outcome} (named : sid ≠ "") (submits : call.submitsFor sid)
    (finishes : (call.task manager).Completes acts result) :
    acts.flatMap (reportedOrders call) = [] ∨
      ∃ front tail, acts = front ++ tail ∧
        Attribution manager sid (acts.flatMap (reportedOrders call)) tail := by
  cases call with
  | createOrder request =>
    obtain rfl : request.sessionId = sid := submits
    obtain ⟨answer, completes, _⟩ := Proc.completes_map.mp finishes
    have path := createOrder_completes named completes
    cases path with
    | refused refusal => exact .inl (refusal_reports refusal)
    | failed error => exact .inl rfl
    | placed order attribution =>
      rw [List.append_cons]
      exact .inr (attributes_after attribution (by simp [gateActs, reportedOrders]))
  | createOrders request =>
    obtain rfl : request.sessionId = sid := submits
    obtain ⟨answer, completes, _⟩ := Proc.completes_map.mp finishes
    have path := createOrders_completes named completes
    cases path with
    | refused refusal => exact .inl (refusal_reports refusal)
    | placed orders attribution =>
      rw [List.append_cons]
      exact .inr (attributes_after attribution (by simp [gateActs, reportedOrders]))
    | unknown error failure attribution =>
      rw [List.append_cons, List.append_cons]
      exact .inr (attributes_after attribution (by simp [gateActs, reportedOrders]))
    | recovered error orders attribution =>
      rw [List.append_cons, List.append_cons]
      exact .inr (attributes_after attribution (by simp [gateActs, reportedOrders]))
  | _ => cases submits

end LongTrader.Session
