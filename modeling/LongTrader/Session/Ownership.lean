import LongTrader.Session.Submission
import LongTrader.Session.Tracked
import LongTrader.Session.Venue

/-! Whose orders a session tracks and cancels, and on which exchange. -/

namespace LongTrader.Session

open Interleave

/-- The exchange that a submission names, if it names one. -/
def Call.asked : Call → Option ExchangeId
  | .createOrder request => request.exchangeId
  | .createOrders request => request.exchangeId
  | _ => none

section Addressing

variable {ι : Type} [DecidableEq ι] {manager : SessionManager} {plane : Plane} {calls : ι → Call}
  {history : List (Entry sig ι)} {config : Config machine ι Outcome} {sid : String}

theorem permitted_places {call : Call} {op : Op} {session : String} {exchange : ExchangeId}
    (permitted : op ∈ call.permits manager) (places : op.places = some (session, exchange)) :
    call.submitsFor session ∧ exchange = resolvedExchange call.asked manager.defaultExchange := by
  cases op
  case createOrder request =>
    obtain ⟨asked, rfl, rfl⟩ := permitted
    obtain ⟨rfl, rfl⟩ := Prod.mk.inj (Option.some.inj places)
    exact ⟨rfl, rfl⟩
  case createOrders request =>
    obtain ⟨asked, rfl, rfl⟩ := permitted
    obtain ⟨rfl, rfl⟩ := Prod.mk.inj (Option.some.inj places)
    exact ⟨rfl, rfl⟩
  all_goals cases places

/-- Every cancel of one order goes to the default exchange. -/
theorem cancelCall_exchange {exchange : ExchangeId} {orderId : String}
    (run : Run (pool manager plane calls) history config)
    (issued : (exchange, orderId) ∈ shown cancelCall history) :
    exchange = manager.defaultExchange := by
  obtain ⟨⟨task, op, ans⟩, performed, seen⟩ := List.mem_filterMap.mp issued
  obtain ⟨_, permitted⟩ := (pool_execution run).meets performed
  cases op
  case cancelOrder target named =>
    obtain ⟨rfl, rfl⟩ := Prod.mk.inj (Option.some.inj seen)
    exact permitted.1
  all_goals cases seen

/-- A cancel with the id of a session's order goes to the exchange the order was
placed on exactly when its submission named no exchange or the default one. -/
theorem cancel_addressed_iff (run : Run (pool manager plane calls) history config)
    (fresh : ∀ earlier ∈ plane.venue, earlier.session ≠ sid) {placed : Placement}
    (member : placed ∈ Plane.venue config.state) (mine : placed.session = sid)
    {exchange : ExchangeId} (issued : (exchange, placed.order.id) ∈ shown cancelCall history) :
    ∃ task, (calls task).submitsFor sid ∧
      placed.exchange = resolvedExchange (calls task).asked manager.defaultExchange ∧
      (exchange = placed.exchange ↔
        (calls task).asked = none ∨ (calls task).asked = some manager.defaultExchange) := by
  rcases book_from (execution_retried (pool_execution run)) (Plane.mem_book member) with
    initial | ⟨task, op, permitted, places, _⟩
  · obtain ⟨earlier, listed, same⟩ := List.mem_map.mp initial
    have session : earlier.session = placed.session := congrArg Ticket.session same
    exact absurd (session.trans mine) (fresh earlier listed)
  · obtain ⟨submits, routed⟩ := permitted_places permitted places
    have here : placed.exchange = resolvedExchange (calls task).asked manager.defaultExchange :=
      routed
    have session : placed.ticket.session = sid := mine
    rw [session] at submits
    refine ⟨task, submits, here, ?_⟩
    rw [cancelCall_exchange run issued, here]
    cases named : (calls task).asked with
    | none => simp [resolvedExchange]
    | some other => simp [resolvedExchange, eq_comm]

end Addressing

/-- A stop that cancels, beside a submission that names an exchange. -/
def stopBesideSubmissionTo (exchangeId : Option ExchangeId) : Bool → Call
  | false => .stopSession "s1" true
  | true => .createOrder (mockSubmission exchangeId)

/-- The order rests on `hyperliquid`; its only cancel goes to the default exchange. -/
theorem stop_cancels_elsewhere :
    ∃ history config,
      Run (pool mockManager (Plane.single (.inState .active []))
        (stopBesideSubmissionTo (some ⟨"hyperliquid", ""⟩))) history config ∧
      Plane.tracked config.state "s1" = ["o2"] ∧
      Plane.venue config.state = [⟨"s1", ⟨"hyperliquid", ""⟩, mockOrder "o2", true⟩] ∧
      shown cancelCall history = [(⟨"mock", ""⟩, "o2")] :=
  Run.exists_of_replay
    (List.flatten [[(true, .none), (true, .none), (true, .create (.accepted (mockOrder "o2"))),
      (true, .none),
      (true, .none), (true, .none), (false, .none), (false, .none), (false, .iteration ["o2"]),
      (false, .cancel .cancelled true)], List.replicate 8 (false, .none)]) (by decide +kernel)

theorem cancel_addressed_iff_default :
    ∃ history config,
      Run (pool mockManager (Plane.single (.inState .active [])) (stopBesideSubmissionTo none))
        history config ∧
      ∃ task, (stopBesideSubmissionTo none task).submitsFor "s1" ∧
        (⟨"mock", ""⟩ : ExchangeId) =
          resolvedExchange (stopBesideSubmissionTo none task).asked mockManager.defaultExchange ∧
        ((⟨"mock", ""⟩ : ExchangeId) = ⟨"mock", ""⟩ ↔
          (stopBesideSubmissionTo none task).asked = none ∨
          (stopBesideSubmissionTo none task).asked = some mockManager.defaultExchange) := by
  obtain ⟨history, config, run, venue, issued⟩ : ∃ history config,
      Run (pool mockManager (Plane.single (.inState .active [])) (stopBesideSubmissionTo none))
        history config ∧
      Plane.venue config.state = [⟨"s1", ⟨"mock", ""⟩, mockOrder "o2", false⟩] ∧
      shown cancelCall history = [(⟨"mock", ""⟩, "o2")] :=
    Run.exists_of_replay
      (List.flatten [[(true, .none), (true, .none), (true, .create (.accepted (mockOrder "o2"))),
      (true, .none),
        (true, .none), (true, .none), (false, .none), (false, .none), (false, .iteration ["o2"]),
        (false, .cancel .cancelled true)], List.replicate 8 (false, .none)]) (by decide +kernel)
  refine ⟨history, config, run, ?_⟩
  have member : (⟨"s1", ⟨"mock", ""⟩, mockOrder "o2", false⟩ : Placement) ∈
      Plane.venue config.state := by
    simp [venue]
  exact cancel_addressed_iff run (by simp [Plane.single]) member rfl
    (by rw [issued]; exact List.mem_singleton.mpr rfl)

/-- Why a call may record an order or cancel one: the venue reported it to the call,
or the call listed it in the tracked set of its session. -/
def Justified (call : Call) (past : List (Act sig)) : Act sig → Prop
  | ⟨.trackOrders sid orders, _⟩ => call.submitsFor sid ∧ sid ≠ "" ∧
      ∀ order ∈ orders, order ∈ past.flatMap (reportedOrders call)
  | ⟨.cancelOrder _ orderId, _⟩ =>
    (∃ sid ids, call.drives sid ∧ (⟨Op.trackedOrders sid, ids⟩ : Act sig) ∈ past ∧ orderId ∈ ids) ∨
      ∃ sid, call.submitsFor sid ∧ sid ≠ "" ∧
        ∃ order ∈ past.flatMap (reportedOrders call), order.id = orderId ∧ orderId ≠ ""
  | _ => True

/-- The actions that need no justification. -/
def unchecked : Set Op :=
  {op | match op with
    | .trackOrders _ _ => False
    | .cancelOrder _ _ => False
    | _ => True}

section Justifying

variable {manager : SessionManager} {call : Call} {past : List (Act sig)} {sid : String}

theorem justified_of_unchecked {act : Act sig} (free : act.op ∈ unchecked) :
    Justified call past act := by
  obtain ⟨op, ans⟩ := act
  cases op
  case trackOrders | cancelOrder => cases free
  all_goals trivial

theorem unchecked_of_steady {op : Op} (free : op.steady = true) : op ∈ unchecked := by
  cases op
  case trackOrders | cancelOrder => cases free
  all_goals trivial

theorem unchecked_justifies {α : Type} {task : Task α} (within : task.Within unchecked) :
    task.Justifies (Justified call) past :=
  within.justifies fun _ _ free => justified_of_unchecked free

theorem unchecked_act {α : Type} {op : Op} {f : op.Ans → Task α} (free : op ∈ unchecked)
    (next : ∀ ans, (f ans).Justifies (Justified call) (past ++ [⟨op, ans⟩])) :
    (perform op >>= f).Justifies (Justified call) past :=
  .act (fun _ => justified_of_unchecked free) next

theorem cancel_justified_later {exchange : ExchangeId} {orderId : String} {outcome : CancelOutcome}
    (holds : Justified call past ⟨Op.cancelOrder exchange orderId, outcome⟩)
    (more : List (Act sig)) :
    Justified call (past ++ more) ⟨Op.cancelOrder exchange orderId, outcome⟩ := by
  rcases holds with ⟨sid, ids, drives, listed, member⟩ | ⟨sid, submits, session, order, reported, named⟩
  · exact .inl ⟨sid, ids, drives, List.mem_append_left _ listed, member⟩
  · refine .inr ⟨sid, submits, session, order, ?_, named⟩
    rw [List.flatMap_append]
    exact List.mem_append_left _ reported

theorem cancelCoids_justifies {coids : List String}
    (holds : ∀ orderId ∈ coids, ∀ outcome,
      Justified call past ⟨Op.cancelOrder manager.defaultExchange orderId, outcome⟩) :
    (cancelCoids manager coids).Justifies (Justified call) past := by
  induction coids generalizing past with
  | nil => trivial
  | cons coid rest ih =>
    refine .act (holds coid (by simp)) fun outcome => ?_
    refine (ih ?_).bind fun _ _ _ => trivial
    intro orderId member later
    exact cancel_justified_later (holds orderId (by simp [member]) later) _

theorem cancelSessionOrders_justifies (drives : call.drives sid) :
    (cancelSessionOrders manager sid).Justifies (Justified call) past := by
  refine unchecked_act trivial fun coids => cancelCoids_justifies ?_
  intro orderId member outcome
  exact .inl ⟨sid, coids, drives, by simp, member⟩

theorem stopSession_justifies (drives : call.drives sid) (cancelOpenOrders : Bool) :
    (stopSession manager sid cancelOpenOrders).Justifies (Justified call) past := by
  have finishes : ∀ failures past, (finishStop sid failures).Justifies (Justified call) past :=
    fun failures _ => unchecked_justifies (finishStop_within (fun _ => unchecked_of_steady) trivial
      (fun _ => trivial) (fun _ => trivial) failures trivial fun _ _ => trivial)
  unfold stopSession
  refine unchecked_act trivial fun registered => ?_
  split
  · refine unchecked_act trivial fun state => ?_
    split
    · trivial
    · split
      · exact (cancelSessionOrders_justifies drives).bind fun _ failures _ => finishes failures _
      · exact finishes [] _
  · trivial

theorem tripKillSwitch_justifies (drives : call.drives sid) :
    (tripKillSwitch manager sid).Justifies (Justified call) past := by
  unfold tripKillSwitch
  refine unchecked_act trivial fun state => ?_
  split
  · refine unchecked_act trivial fun swapped => ?_
    split
    · trivial
    · refine unchecked_act trivial fun _ => ?_
      have publishes : ∀ source target reason,
          (publishStateChange sid source target reason).Within unchecked :=
        publishStateChange_within (fun _ => unchecked_of_steady) trivial (fun _ => trivial)
          fun _ => trivial
      refine (unchecked_justifies (publishes _ _ _)).bind fun _ _ _ => ?_
      refine unchecked_act trivial fun policy => ?_
      cases scope : policy.scope with
      | sessionOrders =>
        exact (cancelSessionOrders_justifies drives).bind fun _ _ _ => trivial
      | allOrders => exact unchecked_act trivial fun _ => trivial
      | unspecified => trivial
      | none => trivial
  · trivial

theorem checkLeaseExpiry_justifies (drives : call.drives sid) :
    (checkLeaseExpiry manager sid).Justifies (Justified call) past := by
  unfold checkLeaseExpiry
  refine unchecked_act trivial fun registered => ?_
  split
  · refine unchecked_act trivial fun policy => ?_
    refine unchecked_act trivial fun state => ?_
    split
    · refine unchecked_act trivial fun elapsed => ?_
      dsimp only [Proc.pure_eq, Proc.done_bind]
      split
      · exact (tripKillSwitch_justifies drives).bind fun _ _ _ => trivial
      · trivial
    · trivial
  · trivial

theorem attributeOrders_justifies {orders : List Order} (submits : call.submitsFor sid)
    (named : sid ≠ "") (reported : ∀ order ∈ orders, order ∈ past.flatMap (reportedOrders call)) :
    (attributeOrders (some manager) (some sid) orders).Justifies (Justified call) past := by
  have records : (recordSubmittedOrders sid orders).Justifies (Justified call) past :=
    .act (fun _ => ⟨submits, named, reported⟩) fun _ => unchecked_act trivial fun _ => trivial
  refine records.bind fun acts _ _ => ?_
  unfold unwindLateSubmissions
  split
  · trivial
  · refine unchecked_act trivial fun state => ?_
    split
    · refine (cancelCoids_justifies ?_).bind fun _ _ _ => trivial
      intro orderId member outcome
      obtain ⟨listed, nonempty⟩ := List.mem_filter.mp member
      obtain ⟨order, present, rfl⟩ := List.mem_map.mp listed
      refine .inr ⟨sid, submits, named, order, ?_, rfl, by simpa using nonempty⟩
      simp only [List.flatMap_append, List.mem_append]
      exact .inl (.inl (reported order present))
    · trivial

theorem createOrder_justifies (request : CreateOrderRequest) :
    (manager.tradingProxy.createOrder request).Justifies (Justified (.createOrder request)) [] := by
  have gate : (authorizeOrderSubmission request.sessionId).Within unchecked :=
    authorizeOrderSubmission_within fun _ => unchecked_of_steady
  have mine : (Call.createOrder request).submitsFor request.sessionId := rfl
  unfold TradingProxy.createOrder
  refine (unchecked_justifies gate).bind fun acts gated finishes => ?_
  cases gated with
  | error error => trivial
  | ok session =>
    refine unchecked_act trivial fun answer => ?_
    cases answer with
    | error error => trivial
    | ok order =>
      rcases authorizeOrderSubmission_passes finishes with ⟨_, rfl, _⟩ | ⟨named, rfl, _⟩
      · trivial
      · refine (attributeOrders_justifies mine named ?_).bind fun _ _ _ => trivial
        intro placed member
        obtain rfl := List.mem_singleton.mp member
        simp [reportedOrders]

theorem createOrders_justifies (request : CreateOrdersRequest) :
    (manager.tradingProxy.createOrders request).Justifies (Justified (.createOrders request))
      [] := by
  have gate : (authorizeOrderSubmission request.sessionId).Within unchecked :=
    authorizeOrderSubmission_within fun _ => unchecked_of_steady
  have mine : (Call.createOrders request).submitsFor request.sessionId := rfl
  unfold TradingProxy.createOrders
  refine (unchecked_justifies gate).bind fun acts gated finishes => ?_
  cases gated with
  | error error => trivial
  | ok session =>
    refine unchecked_act trivial fun answer => ?_
    rcases authorizeOrderSubmission_passes finishes with ⟨_, rfl, _⟩ | ⟨named, rfl, _⟩
    · cases answer with
      | ok orders => trivial
      | error error => trivial
    · cases answer with
      | ok orders =>
        refine (attributeOrders_justifies mine named ?_).bind fun _ _ _ => trivial
        intro placed member
        simp [reportedOrders, member]
      | error error =>
        have query : (acceptedBatchOrders (resolvedExchange request.exchangeId
            manager.tradingProxy.defaultExchange) (request.orders.map (·.clientOrderId))).Within
            unchecked := acceptedBatchOrders_within _ trivial
        refine (unchecked_justifies query).bind fun asked accepted answered => ?_
        refine (attributeOrders_justifies mine named ?_).bind fun _ _ _ => trivial
        obtain ⟨answer, tail, rfl, filters⟩ := Proc.completes_perform_bind.mp answered
        cases answer with
        | error failure =>
          obtain ⟨rfl, rfl⟩ := filters
          simp
        | ok orders =>
          obtain ⟨rfl, rfl⟩ := filters
          intro placed member
          have listed : placed ∈ recovered request orders := member
          simp [reportedOrders, listed]

/-- Every call records and cancels only what it can justify. -/
theorem Call.justifies (manager : SessionManager) (call : Call) :
    (call.task manager).Justifies (Justified call) [] := by
  have others : ¬ call.cancels → (∀ sid, ¬ call.submitsFor sid) →
      (call.task manager).Justifies (Justified call) [] := by
    intro harmless silent
    refine (call.within_permits manager).justifies ?_
    intro past act permitted
    apply justified_of_unchecked
    obtain ⟨op, ans⟩ := act
    cases op
    case trackOrders sid orders => exact absurd permitted.1 (silent sid)
    case cancelOrder exchange orderId => exact absurd permitted.2 harmless
    all_goals trivial
  cases call with
  | stopSession sid cancels =>
    have drives : (Call.stopSession sid cancels).drives sid := rfl
    exact (stopSession_justifies drives cancels).map _
  | checkLeaseExpiry sid =>
    have drives : (Call.checkLeaseExpiry sid).drives sid := rfl
    exact (checkLeaseExpiry_justifies drives).map _
  | tripKillSwitch sid =>
    have drives : (Call.tripKillSwitch sid).drives sid := rfl
    exact (tripKillSwitch_justifies drives).map _
  | createOrder request => exact (createOrder_justifies request).map _
  | createOrders request => exact (createOrders_justifies request).map _
  | _ => exact others id fun _ => id

end Justifying

section Isolation

variable {ι : Type} [DecidableEq ι] {manager : SessionManager} {plane : Plane} {calls : ι → Call}
  {history pre post : List (Entry sig ι)} {config : Config retriedMachine ι Outcome} {sid : String}
  {task : ι} {order : Order}

/-- No submission of a session was answered with an order that the venue holds for another party. -/
def AnsweredOwn (manager : SessionManager) (calls : ι → Call) (history : List (Entry sig ι))
    (venue : List Placement) : Prop :=
  ∀ entry ∈ history, ∀ sid, (calls entry.task).submitsFor sid → sid ≠ "" →
    ∀ order ∈ answeredOrders entry.act, order.id ≠ "" → ∀ placed ∈ venue,
      placed.exchange = resolvedExchange (calls entry.task).asked manager.defaultExchange →
      placed.order.id = order.id → placed.session = sid

/-- No recovery of a failed batch listed an order of another party: every order with a
usable id that it took for its own was placed for its session. -/
def RecoversOwn (manager : SessionManager) (calls : ι → Call) (history : List (Entry sig ι))
    (venue : List Placement) : Prop :=
  ∀ task request orders, calls task = .createOrders request → request.sessionId ≠ "" →
    Entry.of task (Op.fetchOpenOrders (batchExchange manager request)) (Except.ok orders) ∈ history →
    ∀ placed ∈ venue, placed.exchange = batchExchange manager request →
      placed.order ∈ recovered request orders → placed.order.id ≠ "" →
      placed.session = request.sessionId

/-- Whatever the venue reports to a submission of a session, as an answer or in a recovery, rests for the
session. -/
theorem reported_owned (run : Run (retriedPool manager plane calls) history config)
    (answers : AnsweredOwn manager calls history (Plane.venue config.state))
    (recovers : RecoversOwn manager calls history (Plane.venue config.state))
    (submits : (calls task).submitsFor sid) (named : sid ≠ "")
    (reported : order ∈ (own task history).flatMap (reportedOrders (calls task)))
    (usable : order.id ≠ "") :
    ∃ placed ∈ Plane.venue config.state, placed.session = sid ∧
      placed.exchange = resolvedExchange (calls task).asked manager.defaultExchange ∧
      placed.order.id = order.id := by
  have execution := retriedPool_execution run
  obtain ⟨⟨op, ans⟩, performed, listed⟩ := List.mem_flatMap.mp reported
  have entered := mem_own.mp performed
  -- an answer is in the book on the exchange that the submission names, and nobody else's
  have answered : order ∈ answeredOrders ⟨op, ans⟩ → ∃ placed ∈ Plane.venue config.state,
      placed.session = sid ∧
        placed.exchange = resolvedExchange (calls task).asked manager.defaultExchange ∧
        placed.order.id = order.id := by
    intro answer
    obtain ⟨front, back, rfl⟩ := List.append_of_mem entered
    obtain ⟨middle, next, choice, earlier, fires, permitted, later⟩ := retried_act_at execution
    obtain ⟨session, exchange, places, ticket, booked, here, same⟩ :=
      Plane.execRetried_answered fires answer usable
    obtain ⟨_, routed⟩ := permitted_places permitted places
    obtain ⟨placed, present, rfl⟩ := List.mem_map.mp (book_grows later booked)
    have there := here.trans routed
    exact ⟨placed, present, answers _ entered sid submits named order answer usable placed present there same,
      there, same⟩
  cases op
  case createOrder request =>
    cases ans with
    | error error => simp [reportedOrders] at listed
    | ok given => exact answered listed
  case createOrders request =>
    cases ans with
    | error error => simp [reportedOrders] at listed
    | ok given => exact answered listed
  case fetchOpenOrders exchange =>
    obtain ⟨front, back, rfl⟩ := List.append_of_mem entered
    obtain ⟨middle, next, choice, earlier, fires, permitted, later⟩ := retried_act_at execution
    obtain ⟨asked, same, rfl⟩ := permitted
    rw [same] at submits listed ⊢
    obtain rfl : asked.sessionId = sid := submits
    cases ans with
    | error error => simp [reportedOrders] at listed
    | ok given =>
      have member : order ∈ recovered asked given := by simpa [reportedOrders] using listed
      obtain ⟨session, placed⟩ := Plane.exec_fetchOpenOrders fires (List.mem_of_mem_filter member)
      have booked := book_grows later (Plane.execRetried_book_kept fires placed)
      obtain ⟨resting, present, ticket⟩ := List.mem_map.mp booked
      obtain ⟨rfl, here, rfl⟩ := Ticket.mk.inj ticket
      exact ⟨resting, present, recovers task asked given same named entered resting present here member usable,
        here, rfl⟩
  all_goals simp [reportedOrders] at listed

/-- Every order a session tracks was placed for it, and where its request went. -/
theorem tracked_owned (run : Run (retriedPool manager plane calls) history config)
    (untracked : ∀ sid, plane.tracked sid = [])
    (answers : AnsweredOwn manager calls history (Plane.venue config.state))
    (recovers : RecoversOwn manager calls history (Plane.venue config.state)) {id : String}
    (member : id ∈ Plane.tracked config.state sid) :
    id ≠ "" ∧ sid ≠ "" ∧ ∃ task, (calls task).submitsFor sid ∧
      ∃ placed ∈ Plane.venue config.state, placed.session = sid ∧
        placed.exchange = resolvedExchange (calls task).asked manager.defaultExchange ∧
        placed.order.id = id := by
  rcases tracked_from (retriedPool_execution run) member with
    initial | ⟨task, orders, count, recorded, added⟩
  · rw [untracked sid] at initial
    cases initial
  · obtain ⟨order, listed, rfl, usable⟩ := added
    obtain ⟨front, back, rfl⟩ := List.append_of_mem recorded
    obtain ⟨submits, named, reports⟩ := run.justified ((calls task).justifies manager)
    have reported : order ∈ (own task (front ++ Entry.of task (Op.trackOrders sid orders) count ::
        back)).flatMap (reportedOrders (calls task)) := by
      rw [own_append, List.flatMap_append]
      exact List.mem_append_left _ (reports order listed)
    exact ⟨usable, named, task, submits, reported_owned run answers recovers submits named reported usable⟩

/-- Attribution isolation. While no answer and no recovery takes another party's order for its own,
each session tracks only orders that were placed for it; and while its submissions
also stay on the default exchange, its cancels reach only such orders. -/
theorem attribution_isolated (run : Run (retriedPool manager plane calls) history config)
    (untracked : ∀ sid, plane.tracked sid = []) (unique : plane.UniqueIds)
    (answers : AnsweredOwn manager calls history (Plane.venue config.state))
    (recovers : RecoversOwn manager calls history (Plane.venue config.state)) :
    (∀ sid, ∀ id ∈ Plane.tracked config.state sid,
      ∃ placed ∈ Plane.venue config.state, placed.session = sid ∧ placed.order.id = id) ∧
    ((∀ task sid, sid ≠ "" → (calls task).submitsFor sid →
        (calls task).asked = none ∨ (calls task).asked = some manager.defaultExchange) →
      ∀ task exchange orderId outcome,
        Entry.of task (Op.cancelOrder exchange orderId) outcome ∈ history →
        ∀ placed ∈ Plane.venue config.state, placed.exchange = exchange → placed.order.id = orderId →
          (calls task).drives placed.session ∨ (calls task).submitsFor placed.session) := by
  constructor
  · intro sid id member
    obtain ⟨_, _, _, _, placed, present, mine, _, same⟩ :=
      tracked_owned run untracked answers recovers member
    exact ⟨placed, present, mine, same⟩
  · intro onDefault task exchange orderId outcome cancelled placed present here named
    have execution := retriedPool_execution run
    obtain ⟨_, permitted⟩ := execution.meets cancelled
    have atDefault : ∀ task sid, sid ≠ "" → (calls task).submitsFor sid →
        resolvedExchange (calls task).asked manager.defaultExchange = placed.exchange := by
      intro other sid session submits
      rw [here, permitted.1]
      rcases onDefault other sid session submits with none | same
      · rw [none]
        rfl
      · rw [same]
        rfl
    have sole : ∀ other ∈ Plane.venue config.state, other.exchange = placed.exchange →
        other.order.id = orderId → orderId ≠ "" → other.session = placed.session := by
      intro other listed sameExchange sameId usable
      have same := unique_stays execution unique other.ticket (Plane.mem_book listed) placed.ticket
        (Plane.mem_book present) sameExchange (sameId.trans named.symm) (sameId ▸ usable)
      exact congrArg Ticket.session same
    obtain ⟨front, back, rfl⟩ := List.append_of_mem cancelled
    rcases run.justified ((calls task).justifies manager) with
      ⟨sid, ids, drives, listing, listed⟩ | ⟨sid, submits, session, order, reported, sameId, usable⟩
    · obtain ⟨first, second, rfl⟩ := List.append_of_mem (mem_own.mp listing)
      rw [List.append_assoc, List.cons_append] at execution
      obtain ⟨middle, _, lists, later⟩ := snapshot_at execution
      have kept := tracked_grows later ((lists orderId).mp listed)
      obtain ⟨usable, session, placer, submits, other, booked, mine, there, same⟩ :=
        tracked_owned run untracked answers recovers kept
      have owner := sole other booked (there.trans (atDefault placer sid session submits)) same usable
      exact .inl (mine.symm.trans owner ▸ drives)
    · have later : order ∈ (own task (front ++ Entry.of task (Op.cancelOrder exchange orderId)
          outcome :: back)).flatMap (reportedOrders (calls task)) := by
        rw [own_append, List.flatMap_append]
        exact List.mem_append_left _ reported
      obtain ⟨other, booked, mine, there, same⟩ :=
        reported_owned run answers recovers submits session later (by rwa [sameId])
      have owner := sole other booked (there.trans (atDefault task sid session submits))
        (same.trans sameId) usable
      exact .inr (mine.symm.trans owner ▸ submits)

end Isolation

/-- A batch of session `s1` with one leg. -/
def mockBatch : CreateOrdersRequest :=
  ⟨none, [⟨"c-x1", "BTC/USDT", .buy, some "1", some "100"⟩], "s1"⟩

/-- An operator's order, a batch of session `s1` and a stop of that session. -/
def operatorBesideBatch : Fin 3 → Call
  | 0 => .createOrder ⟨none, some ⟨"c-x1", "BTC/USDT", .buy, some "1", some "100"⟩, ""⟩
  | 1 => .createOrders mockBatch
  | 2 => .stopSession "s1" true

/-- The batch is refused as a whole, its recovery finds the operator's order under the
same client order id, and the stop of the session cancels it. -/
theorem batch_takes_operator_order :
    ∃ history config,
      Run (pool mockManager (Plane.single (.inState .active [])) operatorBesideBatch) history
        config ∧
      Plane.tracked config.state "s1" = ["x1"] ∧
      Plane.venue config.state = [⟨"", mockManager.defaultExchange, mockOrder "x1", false⟩] ∧
      shown cancelCall history = [(mockManager.defaultExchange, "x1")] :=
  Run.exists_of_replay
    [(0, .create (.accepted (mockOrder "x1"))), (1, .none), (1, .none),
      (1, .batch (.failed [] (.invalidArgument "rate limited"))), (1, .fetch none), (1, .none),
      (1, .none), (1, .none), (2, .none), (2, .none), (2, .iteration ["x1"]),
      (2, .cancel .cancelled true)] (by decide +kernel)

/-- The first leg of a batch rests before the rest fails, and the batch is sent again: the venue answers with
the order that it has. -/
theorem attribution_isolated_partial_batch :
    ∃ history config,
      Run (retriedPool mockManager (Plane.single (.inState .active [])) fun _ : Bool => .createOrders mockBatch)
        history config ∧
      Plane.tracked config.state "s1" = ["x1"] ∧
      ∃ placed ∈ Plane.venue config.state, placed.session = "s1" ∧ placed.order.id = "x1" := by
  obtain ⟨history, config, run, tracked, venue⟩ : ∃ history config,
      Run (retriedPool mockManager (Plane.single (.inState .active [])) fun _ : Bool => .createOrders mockBatch)
        history config ∧
      Plane.tracked config.state "s1" = ["x1"] ∧
      Plane.venue config.state = [⟨"s1", mockManager.defaultExchange, mockOrder "x1", true⟩] :=
    Run.exists_of_replay
      [(true, .none), (true, .none), (true, .batch (.failed [mockOrder "x1"] (.transport "timeout"))),
        (true, .fetch none), (true, .none), (true, .none), (true, .none), (false, .none), (false, .none),
        (false, .batch (.accepted [mockOrder "x1"])), (false, .none), (false, .none), (false, .none)]
      (by decide +kernel)
  have untracked : ∀ sid, (Plane.single (.inState .active [])).tracked sid = [] := by
    intro sid
    simp only [Plane.tracked, Plane.single]
    split
    · rfl
    · rfl
  have unique : (Plane.single (.inState .active [])).UniqueIds := by
    intro first member
    cases member
  have owner : ∀ placed ∈ Plane.venue config.state, placed.session = "s1" := by
    intro placed present
    rw [venue] at present
    rw [List.mem_singleton.mp present]
  have answers : AnsweredOwn mockManager (fun _ : Bool => .createOrders mockBatch) history
      (Plane.venue config.state) := by
    intro entry _ sid submits _ order _ _ placed present _ _
    exact (owner placed present).trans submits
  have recovers : RecoversOwn mockManager (fun _ : Bool => .createOrders mockBatch) history
      (Plane.venue config.state) := by
    intro task request orders batch _ _ placed present _ _ _
    obtain rfl := Call.createOrders.inj batch
    exact owner placed present
  refine ⟨history, config, run, tracked, ?_⟩
  exact (attribution_isolated run untracked unique answers recovers).1 "s1" "x1" (by simp [tracked])

end LongTrader.Session
