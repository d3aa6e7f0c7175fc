import LongTrader.Session.Service

/-! Which actions each call may perform. Every other fact about all interleavings
of calls starts from here. -/

namespace LongTrader.Session

open Interleave

/-- The calls that may move the state of session `sid`. -/
def Call.drives (sid : String) : Call → Prop
  | .beginReconcile target | .completeReconcile target _ | .reconcileState target
  | .stopSession target _ | .checkLeaseExpiry target | .tripKillSwitch target => target = sid
  | _ => False

/-- The calls that submit orders for session `sid`. -/
def Call.submitsFor (sid : String) : Call → Prop
  | .createOrder request => request.sessionId = sid
  | .createOrders request => request.sessionId = sid
  | _ => False

/-- The calls that may cancel single orders. -/
def Call.cancels : Call → Prop
  | .stopSession _ _ | .checkLeaseExpiry _ | .tripKillSwitch _ | .createOrder _
  | .createOrders _ => True
  | _ => False

/-- The calls that may change the policy of session `sid`. -/
def Call.configures (sid : String) : Call → Prop
  | .attach _ _ target _ => target = sid
  | .setKillSwitchPolicy target _ => target = sid
  | _ => False

/-- The request as the venue receives it, with its exchange resolved. -/
def routeOrder (defaultExchange : ExchangeId) (request : CreateOrderRequest) :
    CreateOrderRequest :=
  { request with exchangeId := some (resolvedExchange request.exchangeId defaultExchange) }

def routeOrders (defaultExchange : ExchangeId) (request : CreateOrdersRequest) :
    CreateOrdersRequest :=
  { request with exchangeId := some (resolvedExchange request.exchangeId defaultExchange) }

/-- Actions that any call may perform. -/
def Op.routine : Op → Bool
  | .cas .. | .nextSeq _ | .pushRing .. | .send .. | .trackOrders .. | .createOrder _ | .createOrders _
  | .cancelOrder .. | .cancelAllOrders _ | .updatePolicy .. | .fetchOpenOrders _ => false
  | _ => true

/-- Routine actions other than the stamp of a terminal session. -/
def Op.common : Op → Bool
  | .markTerminal _ => false
  | op => op.routine

/-- Common actions other than a move of the snapshot watermark or of the order counter. -/
def Op.steady : Op → Bool
  | .fetchMaxSnapshotSeq .. | .addOrdersSubmitted .. => false
  | op => op.common

/-- The calls that complete the reconcile of session `sid`. -/
def Call.reconciles (sid : String) : Call → Prop
  | .completeReconcile target _ | .reconcileState target => target = sid
  | _ => False

/-- The actions of a call: swaps follow the lifecycle graph, cancels go to the
default exchange, and orders are placed and tracked for the request's session. -/
def Call.permits (manager : SessionManager) (call : Call) : Set Op :=
  {op | match op with
    | .cas sid source target => SessionState.Edge source target ∧ call.drives sid
    | .cancelOrder exchange _ => exchange = manager.defaultExchange ∧ call.cancels
    | .cancelAllOrders exchange => exchange = manager.defaultExchange
    | .trackOrders sid _ => call.submitsFor sid ∧ sid ≠ ""
    | .updatePolicy sid _ => call.configures sid
    | .fetchOpenOrders exchange => ∃ asked, call = .createOrders asked ∧
        exchange = resolvedExchange asked.exchangeId manager.defaultExchange
    | .createOrder request =>
      ∃ asked, call = .createOrder asked ∧ request = routeOrder manager.defaultExchange asked
    | .createOrders request =>
      ∃ asked, call = .createOrders asked ∧ request = routeOrders manager.defaultExchange asked
    | _ => True}

section Programs

variable {manager : SessionManager} {sid : String} {allowed : Set Op}
  (routine : ∀ op : Op, op.steady = true → op ∈ allowed)

include routine

theorem publish_within {event : StrategyEvent} (number : Op.nextSeq sid ∈ allowed)
    (push : ∀ seq, Op.pushRing sid (stamp event seq) ∈ allowed)
    (send : ∀ seq, Op.send sid (stamp event seq) ∈ allowed) :
    (publish sid event).Within allowed := by
  unfold publish
  refine .act number fun seq => ?_
  refine .act (routine _ rfl) fun _ => ?_
  exact ⟨push seq, fun _ => ⟨send seq, fun _ => trivial⟩⟩

omit routine in
theorem cancelCoids_within (cancel : ∀ id, Op.cancelOrder manager.defaultExchange id ∈ allowed)
    (coids : List String) : (cancelCoids manager coids).Within allowed := by
  induction coids with
  | nil => trivial
  | cons coid rest ih =>
    refine .act (cancel coid) fun outcome => ?_
    exact ih.bind fun _ => trivial

theorem cancelSessionOrders_within
    (cancel : ∀ id, Op.cancelOrder manager.defaultExchange id ∈ allowed) :
    (cancelSessionOrders manager sid).Within allowed := by
  unfold cancelSessionOrders
  refine .act (routine _ rfl) fun coids => ?_
  exact cancelCoids_within cancel coids

section Lifecycle

variable (number : Op.nextSeq sid ∈ allowed) (push : ∀ shared, Op.pushRing sid shared ∈ allowed)
  (send : ∀ shared, Op.send sid shared ∈ allowed)

include number push send

theorem publishStateChange_within (source target : SessionState) (reason : String) :
    (publishStateChange sid source target reason).Within allowed :=
  (publish_within routine number (fun _ => push _) (fun _ => send _)).bind fun _ => trivial

theorem beginReconcile_within (swap : Op.cas sid .attached .syncing ∈ allowed) :
    (beginReconcile sid).Within allowed := by
  unfold beginReconcile
  refine .act (routine _ rfl) fun registered => ?_
  split
  · refine .act (routine _ rfl) fun state => ?_
    split
    · refine .act (swap) fun swapped => ?_
      split
      · exact (publishStateChange_within routine number push send _ _ _).bind fun _ => trivial
      · trivial
    all_goals trivial
  · trivial

theorem completeReconcile_within (snapshotSequence : Nat)
    (advance : Op.fetchMaxSnapshotSeq sid snapshotSequence ∈ allowed)
    (swap : Op.cas sid .syncing .active ∈ allowed) :
    (completeReconcile sid snapshotSequence).Within allowed := by
  unfold completeReconcile
  refine .act (routine _ rfl) fun registered => ?_
  split
  · refine .act advance fun _ => ?_
    refine .act (routine _ rfl) fun state => ?_
    split
    · refine .act (swap) fun swapped => ?_
      split
      · exact (publishStateChange_within routine number push send _ _ _).bind fun _ => trivial
      · trivial
    all_goals trivial
  · trivial

omit number push send in
theorem reportStop_within (failures : List String) :
    (reportStop sid failures).Within allowed := by
  unfold reportStop
  refine .act (routine _ rfl) fun state => ?_
  split
  · trivial
  · trivial

theorem finishStop_within (failures : List String) (mark : Op.markTerminal sid ∈ allowed)
    (swap : ∀ prev : SessionState, prev.isTerminal = false →
      Op.cas sid prev .gracefulShutdown ∈ allowed) :
    (finishStop sid failures).Within allowed := by
  unfold finishStop
  refine .act (routine _ rfl) fun state => ?_
  split
  · trivial
  · rename_i prev
    split
    · trivial
    · rename_i live
      refine .act (swap prev (by simpa using live)) fun swapped => ?_
      split
      · exact reportStop_within routine failures
      · refine .act mark fun _ => ?_
        exact (publishStateChange_within routine number push send _ _ _).bind fun _ =>
          reportStop_within routine failures

theorem stopSession_within (cancelOpenOrders : Bool)
    (cancel : ∀ id, Op.cancelOrder manager.defaultExchange id ∈ allowed)
    (mark : Op.markTerminal sid ∈ allowed)
    (swap : ∀ prev : SessionState, prev.isTerminal = false →
      Op.cas sid prev .gracefulShutdown ∈ allowed) :
    (stopSession manager sid cancelOpenOrders).Within allowed := by
  unfold stopSession
  refine .act (routine _ rfl) fun registered => ?_
  split
  · refine .act (routine _ rfl) fun state => ?_
    split
    · trivial
    · split
      · exact (cancelSessionOrders_within routine cancel).bind fun failures =>
          finishStop_within routine number push send failures mark swap
      · exact finishStop_within routine number push send [] mark swap
  · trivial

omit number push send in
theorem executeScope_within
    (cancel : ∀ id, Op.cancelOrder manager.defaultExchange id ∈ allowed)
    (cancelAll : Op.cancelAllOrders manager.defaultExchange ∈ allowed) (scope : Scope) :
    (executeScope manager sid scope).Within allowed := by
  cases scope with
  | sessionOrders => exact (cancelSessionOrders_within routine cancel).bind fun _ => trivial
  | allOrders => exact .act cancelAll fun _ => trivial
  | unspecified => trivial
  | none => trivial

theorem tripKillSwitch_within
    (cancel : ∀ id, Op.cancelOrder manager.defaultExchange id ∈ allowed)
    (cancelAll : Op.cancelAllOrders manager.defaultExchange ∈ allowed)
    (mark : Op.markTerminal sid ∈ allowed)
    (swap : Op.cas sid .active .killSwitchTripped ∈ allowed) :
    (tripKillSwitch manager sid).Within allowed := by
  unfold tripKillSwitch
  refine .act (routine _ rfl) fun state => ?_
  split
  · refine .act swap fun swapped => ?_
    split
    · trivial
    · refine .act mark fun _ => ?_
      refine (publishStateChange_within routine number push send _ _ _).bind fun _ => ?_
      refine .act (routine _ rfl) fun policy => ?_
      exact executeScope_within routine cancel cancelAll policy.scope
  · trivial

theorem checkLeaseExpiry_within
    (cancel : ∀ id, Op.cancelOrder manager.defaultExchange id ∈ allowed)
    (cancelAll : Op.cancelAllOrders manager.defaultExchange ∈ allowed)
    (mark : Op.markTerminal sid ∈ allowed)
    (swap : Op.cas sid .active .killSwitchTripped ∈ allowed) :
    (checkLeaseExpiry manager sid).Within allowed := by
  have trip := tripKillSwitch_within routine number push send cancel cancelAll mark swap
  unfold checkLeaseExpiry
  refine .act (routine _ rfl) fun registered => ?_
  split
  · refine .act (routine _ rfl) fun policy => ?_
    refine .act (routine _ rfl) fun state => ?_
    split
    · refine .act (routine _ rfl) fun elapsed => ?_
      dsimp only [Proc.pure_eq, Proc.done_bind]
      split
      · exact trip.bind fun _ => trivial
      · trivial
    · trivial
  · trivial

theorem reconcileState_within (start : Op.cas sid .attached .syncing ∈ allowed)
    (advance : ∀ snapshotSequence, Op.fetchMaxSnapshotSeq sid snapshotSequence ∈ allowed)
    (finish : Op.cas sid .syncing .active ∈ allowed) :
    (reconcileState manager sid).Within allowed := by
  unfold reconcileState
  refine (beginReconcile_within routine number push send start).bind fun begun => ?_
  split
  · trivial
  · refine .act (routine _ rfl) fun answer => ?_
    split
    · trivial
    · refine (completeReconcile_within routine number push send _ (advance _) finish).bind fun completed => ?_
      split
      · trivial
      · trivial

end Lifecycle

theorem reportLog_within {level : LogLevel} {message : String} {fields : List (String × String)}
    (number : Op.nextSeq sid ∈ allowed)
    (push : ∀ shared, shared.event = some (.log ⟨sid, level, message, fields⟩) →
      Op.pushRing sid shared ∈ allowed)
    (send : ∀ shared, shared.event = some (.log ⟨sid, level, message, fields⟩) →
      Op.send sid shared ∈ allowed) :
    (reportLog sid level message fields).Within allowed := by
  unfold reportLog
  refine .act (routine _ rfl) fun registered => ?_
  split
  · refine .act (routine _ rfl) fun _ => ?_
    exact (publish_within routine number (fun _ => push _ rfl) (fun _ => send _ rfl)).bind fun _ => trivial
  · trivial

theorem authorizeOrderSubmission_within : (authorizeOrderSubmission sid).Within allowed := by
  unfold authorizeOrderSubmission
  split
  · trivial
  · refine .act (routine _ rfl) fun registered => ?_
    split
    · refine .act (routine _ rfl) fun state => ?_
      split
      · trivial
      · exact .act (routine _ rfl) fun _ => trivial
    · trivial

theorem unwindLateSubmissions_within
    (cancel : ∀ id, Op.cancelOrder manager.defaultExchange id ∈ allowed) (orders : List Order) :
    (unwindLateSubmissions manager sid orders).Within allowed := by
  unfold unwindLateSubmissions
  split
  · trivial
  · refine .act (routine _ rfl) fun state => ?_
    split
    · exact (cancelCoids_within cancel _).bind fun _ => trivial
    · trivial

theorem attributeOrders_within {handle : Option String}
    (cancel : ∀ id, Op.cancelOrder manager.defaultExchange id ∈ allowed) (orders : List Order)
    (track : ∀ sid, handle = some sid → Op.trackOrders sid orders ∈ allowed ∧
      ∀ attributed, Op.addOrdersSubmitted sid attributed ∈ allowed) :
    (attributeOrders (some manager) handle orders).Within allowed := by
  cases handle with
  | none => trivial
  | some sid =>
    have recorded : (recordSubmittedOrders sid orders).Within allowed :=
      .act (track sid rfl).1 fun _ => .act ((track sid rfl).2 _) fun _ => trivial
    exact recorded.bind fun _ => unwindLateSubmissions_within routine cancel orders

omit routine in
theorem acceptedBatchOrders_within {exchange : ExchangeId} (requested : List String)
    (query : Op.fetchOpenOrders exchange ∈ allowed) :
    (acceptedBatchOrders exchange requested).Within allowed := by
  unfold acceptedBatchOrders
  refine .act query fun answer => ?_
  split
  · trivial
  · trivial

theorem attachWithReconnect_within (token : String) (policy : Option KillSwitchPolicy)
    (client : ClientIdentity) (update : ∀ policy, Op.updatePolicy sid policy ∈ allowed) :
    (attachWithReconnect manager token policy sid client).Within allowed := by
  have fresh : (attachFresh policy client).Within allowed := by
    unfold attachFresh
    cases policy with
    | none => exact .act (routine _ rfl) fun _ => trivial
    | some policy =>
      dsimp only
      obtain ⟨sessionPolicy, _ | _⟩ := applyPolicy default policy
      · trivial
      · exact .act (routine _ rfl) fun _ => trivial
  have reused : (reconnect manager.quoted sid policy client).Within allowed := by
    unfold reconnect
    refine .act (routine _ rfl) fun state => ?_
    split
    case h_1 | h_2 | h_6 => trivial
    all_goals
      refine .act (routine _ rfl) fun recorded => ?_
      split
      · trivial
      · refine .act (routine _ rfl) fun _ => ?_
        cases policy with
        | none => exact .act (routine _ rfl) fun _ => trivial
        | some policy =>
          refine .act (update policy) fun updated => ?_
          cases updated with
          | error error => trivial
          | ok _ => exact .act (routine _ rfl) fun _ => trivial
  unfold attachWithReconnect
  split
  · trivial
  · split
    · exact fresh
    · refine .act (routine _ rfl) fun registered => ?_
      split
      · exact reused
      · exact fresh

theorem keepAlive_within : (keepAlive sid).Within allowed := by
  unfold keepAlive
  refine .act (routine _ rfl) fun registered => ?_
  split
  · exact .act (routine _ rfl) fun _ => .act (routine _ rfl) fun _ => trivial
  · trivial

theorem setKillSwitchPolicy_within (policy : Option KillSwitchPolicy)
    (update : ∀ policy, Op.updatePolicy sid policy ∈ allowed) :
    (setKillSwitchPolicy sid policy).Within allowed := by
  unfold setKillSwitchPolicy
  refine .act (routine _ rfl) fun registered => ?_
  split
  · split
    · trivial
    · exact .act (update _) fun _ => trivial
  · trivial

theorem streamStrategyEvents_within (resumeToken : String) (polls : Nat) :
    (streamStrategyEvents sid resumeToken polls).Within allowed := by
  have replays : ∀ watermark events, (forwardReplay watermark events).Within allowed := by
    intro watermark events
    induction events with
    | nil => trivial
    | cons event rest ih =>
      unfold forwardReplay
      split
      · exact ih
      · exact .act (routine _ rfl) fun _ => ih
  have lives : ∀ polls rx, (forwardLive sid rx polls).Within allowed := by
    intro polls
    induction polls with
    | zero => intro rx; trivial
    | succ polls ih =>
      intro rx
      unfold forwardLive
      refine .act (routine _ rfl) fun received => ?_
      split
      · exact .act (routine _ rfl) fun _ => ih (rx + 1)
      all_goals trivial
  unfold streamStrategyEvents
  refine .act (routine _ rfl) fun registered => ?_
  split
  · split
    · trivial
    · rename_i after _
      refine .act (routine _ rfl) fun rx => ?_
      refine .act (routine _ rfl) fun watermark => ?_
      have replayed : (replayAfter sid after).Within allowed :=
        .act (routine _ rfl) fun _ => .act (routine _ rfl) fun _ => trivial
      refine replayed.bind fun events => ?_
      exact (replays watermark events).bind fun _ => (lives polls rx).bind fun _ => trivial
  · trivial

end Programs

section Proxy

variable {manager : SessionManager} {allowed : Set Op}
  (routine : ∀ op : Op, op.steady = true → op ∈ allowed)
  (cancel : ∀ id, Op.cancelOrder manager.defaultExchange id ∈ allowed)

include routine cancel

theorem createOrder_within (request : CreateOrderRequest)
    (create : Op.createOrder (routeOrder manager.defaultExchange request) ∈ allowed)
    (track : ∀ orders, request.sessionId ≠ "" → Op.trackOrders request.sessionId orders ∈ allowed ∧
      ∀ attributed, Op.addOrdersSubmitted request.sessionId attributed ∈ allowed) :
    (manager.tradingProxy.createOrder request).Within allowed := by
  unfold TradingProxy.createOrder
  refine (authorizeOrderSubmission_within routine).bind_of_completes fun acts answer gated => ?_
  split
  · trivial
  · rename_i session
    refine .act create fun answer => ?_
    split
    · trivial
    · rename_i order
      refine (attributeOrders_within routine cancel [order] ?_).bind fun _ => trivial
      intro sid passed
      subst passed
      rcases authorizeOrderSubmission_passes gated with ⟨_, blank, _⟩ | ⟨named, same, _⟩
      · cases blank
      · obtain rfl := Option.some.inj same
        exact track [order] named

theorem createOrders_within (request : CreateOrdersRequest)
    (create : Op.createOrders (routeOrders manager.defaultExchange request) ∈ allowed)
    (query : Op.fetchOpenOrders (resolvedExchange request.exchangeId manager.defaultExchange) ∈
      allowed)
    (track : ∀ orders, request.sessionId ≠ "" → Op.trackOrders request.sessionId orders ∈ allowed ∧
      ∀ attributed, Op.addOrdersSubmitted request.sessionId attributed ∈ allowed) :
    (manager.tradingProxy.createOrders request).Within allowed := by
  unfold TradingProxy.createOrders
  refine (authorizeOrderSubmission_within routine).bind_of_completes fun acts answer gated => ?_
  split
  · trivial
  · rename_i session
    have attributed : ∀ orders,
        (attributeOrders manager.tradingProxy.manager session orders).Within allowed := by
      intro orders
      refine attributeOrders_within routine cancel orders ?_
      intro sid passed
      subst passed
      rcases authorizeOrderSubmission_passes gated with ⟨_, blank, _⟩ | ⟨named, same, _⟩
      · cases blank
      · obtain rfl := Option.some.inj same
        exact track orders named
    refine .act create fun answer => ?_
    split
    · rename_i orders
      exact (attributed orders).bind fun _ => trivial
    · split
      · refine (acceptedBatchOrders_within _ query).bind fun accepted => ?_
        exact (attributed accepted).bind fun _ => trivial
      · trivial

end Proxy

/-- The permitted actions of a call; only a reconcile moves the watermark of its session, and only a
submission the counter of its own. -/
def Call.performs (manager : SessionManager) (call : Call) : Set Op :=
  {op | op ∈ call.permits manager ∧
    match op with
    | .fetchMaxSnapshotSeq sid _ => call.reconciles sid
    | .addOrdersSubmitted sid _ => call.submitsFor sid ∧ sid ≠ ""
    | _ => True}

/-- Every call keeps to the actions it performs. -/
theorem Call.within_performs (manager : SessionManager) (call : Call) :
    (call.task manager).Within (call.performs manager) := by
  have routine : ∀ op : Op, op.steady = true → op ∈ call.performs manager := by
    intro op free
    cases op
    case cas | pushRing | send | trackOrders | createOrder | createOrders | cancelOrder
        | cancelAllOrders | updatePolicy | fetchOpenOrders | fetchMaxSnapshotSeq
        | addOrdersSubmitted => cases free
    all_goals exact ⟨trivial, trivial⟩
  have cancel : call.cancels →
      ∀ id, Op.cancelOrder manager.defaultExchange id ∈ call.performs manager :=
    fun may _ => ⟨⟨rfl, may⟩, trivial⟩
  have cancelAll : Op.cancelAllOrders manager.defaultExchange ∈ call.performs manager := ⟨rfl, trivial⟩
  have number : ∀ sid, Op.nextSeq sid ∈ call.performs manager := fun _ => ⟨trivial, trivial⟩
  have push : ∀ sid shared, Op.pushRing sid shared ∈ call.performs manager := fun _ _ => ⟨trivial, trivial⟩
  have send : ∀ sid shared, Op.send sid shared ∈ call.performs manager := fun _ _ => ⟨trivial, trivial⟩
  have mark : ∀ sid, Op.markTerminal sid ∈ call.performs manager := fun _ => ⟨trivial, trivial⟩
  cases call with
  | attach token policy sid client =>
    exact (attachWithReconnect_within routine token policy client fun _ => ⟨rfl, trivial⟩).map _
  | keepAlive sid => exact (keepAlive_within routine).map _
  | setKillSwitchPolicy sid policy =>
    exact (setKillSwitchPolicy_within routine policy fun _ => ⟨rfl, trivial⟩).map _
  | beginReconcile sid =>
    exact (beginReconcile_within routine (number sid) (push sid) (send sid)
      ⟨⟨.beginReconcile, rfl⟩, trivial⟩).map _
  | completeReconcile sid snapshotSequence =>
    exact (completeReconcile_within routine (number sid) (push sid) (send sid) _
      ⟨trivial, rfl⟩ ⟨⟨.completeReconcile, rfl⟩, trivial⟩).map _
  | reconcileState sid =>
    exact (reconcileState_within routine (number sid) (push sid) (send sid)
      ⟨⟨.beginReconcile, rfl⟩, trivial⟩ (fun _ => ⟨trivial, rfl⟩)
      ⟨⟨.completeReconcile, rfl⟩, trivial⟩).map _
  | stopSession sid cancelOpenOrders =>
    exact (stopSession_within routine (number sid) (push sid) (send sid) _ (cancel trivial) (mark sid)
      fun prev live => ⟨⟨.stop live, rfl⟩, trivial⟩).map _
  | checkLeaseExpiry sid =>
    exact (checkLeaseExpiry_within routine (number sid) (push sid) (send sid) (cancel trivial) cancelAll
      (mark sid) ⟨⟨.trip, rfl⟩, trivial⟩).map _
  | tripKillSwitch sid =>
    exact (tripKillSwitch_within routine (number sid) (push sid) (send sid) (cancel trivial) cancelAll
      (mark sid) ⟨⟨.trip, rfl⟩, trivial⟩).map _
  | createOrder request =>
    exact (createOrder_within routine (cancel trivial) request ⟨⟨request, rfl, rfl⟩, trivial⟩
      fun _ named => ⟨⟨⟨rfl, named⟩, trivial⟩, fun _ => ⟨trivial, rfl, named⟩⟩).map _
  | createOrders request =>
    exact (createOrders_within routine (cancel trivial) request ⟨⟨request, rfl, rfl⟩, trivial⟩
      ⟨⟨request, rfl, rfl⟩, trivial⟩ fun _ named =>
        ⟨⟨⟨rfl, named⟩, trivial⟩, fun _ => ⟨trivial, rfl, named⟩⟩).map _
  | reportLog sid level message fields =>
    exact (reportLog_within routine (number sid) (fun _ _ => push _ _) (fun _ _ => send _ _)).map _
  | publish sid event =>
    exact (publish_within routine (number sid) (fun _ => push _ _) (fun _ => send _ _)).map _
  | stream sid resumeToken polls =>
    exact (streamStrategyEvents_within routine resumeToken polls).map _
  | venueClose exchange orderId => exact (Proc.within_perform.mpr (routine _ rfl)).map _
  | timePasses elapsed => exact (Proc.within_perform.mpr (routine _ rfl)).map _

/-- Every call keeps to the actions it is permitted. -/
theorem Call.within_permits (manager : SessionManager) (call : Call) :
    (call.task manager).Within (call.permits manager) :=
  (call.within_performs manager).mono fun _ performed => performed.1

/-- The entries of a history that the pool's calls permit. -/
abbrev Permitted {ι : Type} (manager : SessionManager) (calls : ι → Call) :
    machine.State → Entry sig ι → Prop :=
  fun _ entry => entry.act.op ∈ (calls entry.task).permits manager

/-- Along a run of a pool every action is one its call permits. -/
theorem pool_execution {ι : Type} [DecidableEq ι] {manager : SessionManager} {plane : Plane}
    {calls : ι → Call} {history : List (Entry sig ι)} {config : Config machine ι Outcome}
    (run : Run (pool manager plane calls) history config) :
    Execution machine (Permitted manager calls) plane history config.state :=
  run.execution fun task => (calls task).within_permits manager

end LongTrader.Session
