import LongTrader.Session.Retried

/-! The venue along a history: who placed which order where never changes, only
submissions add to it, and ids stay unique on each exchange. -/

namespace LongTrader.Session

open Interleave

/-- What never changes about a placement. -/
structure Ticket where
  session : String
  exchange : ExchangeId
  order : Order
  deriving DecidableEq, Repr

def Placement.ticket (placed : Placement) : Ticket := ⟨placed.session, placed.exchange, placed.order⟩

namespace Plane

/-- Every order the venue ever accepted. -/
def book (plane : Plane) : List Ticket := plane.venue.map Placement.ticket

/-- A non-empty id names one order of an exchange. -/
def UniqueIds (plane : Plane) : Prop :=
  ∀ first ∈ plane.book, ∀ second ∈ plane.book, first.exchange = second.exchange →
    first.order.id = second.order.id → first.order.id ≠ "" → first = second

theorem mem_book {plane : Plane} {placed : Placement} (member : placed ∈ plane.venue) :
    placed.ticket ∈ plane.book :=
  List.mem_map_of_mem member

@[simp] theorem book_setHandle (plane : Plane) (sid : String) (handle : SessionHandle) :
    (plane.setHandle sid handle).book = plane.book := rfl

@[simp] theorem book_close (plane : Plane) (exchange : ExchangeId) (orderId : String) :
    (plane.close exchange orderId).book = plane.book := by
  simp only [book, close, List.map_map]
  apply List.map_congr_left
  intro placed _
  simp only [Function.comp_apply]
  split <;> rfl

@[simp] theorem book_closeAll (plane : Plane) (exchange : ExchangeId) :
    (plane.closeAll exchange).book = plane.book := by
  simp only [book, closeAll, List.map_map]
  apply List.map_congr_left
  intro placed _
  simp only [Function.comp_apply]
  split <;> rfl

theorem book_placeAll {plane placed : Plane} {session : String} {exchange : ExchangeId}
    {orders : List Order} (success : plane.placeAll session exchange orders = some placed) :
    placed.book = plane.book ++ orders.map (Ticket.mk session exchange) := by
  induction orders generalizing plane with
  | nil =>
    obtain rfl := Option.some.inj success
    simp
  | cons order rest ih =>
    simp only [placeAll] at success
    split at success
    · rw [ih success]
      simp [book, place, Placement.ticket]
    · cases success

/-- An order that the venue does not hold yet keeps the ids unique. -/
theorem unique_place {plane : Plane} {session : String} {exchange : ExchangeId} {order : Order}
    (fresh : plane.freshOn exchange order = true) (unique : plane.UniqueIds) :
    (plane.place session exchange order).UniqueIds := by
  have unlisted : order.id ≠ "" → ∀ ticket ∈ plane.book,
      ticket.exchange = exchange → ticket.order.id ≠ order.id := by
    intro named ticket member here
    obtain ⟨placed, listed, rfl⟩ := List.mem_map.mp member
    simp only [freshOn, named, decide_false, Bool.false_or, List.all_eq_true] at fresh
    have away := fresh placed listed
    simp only [Bool.not_eq_true', Bool.and_eq_false_imp, decide_eq_true_eq,
      decide_eq_false_iff_not] at away
    exact away here
  intro first firstIn second secondIn sameExchange sameId named
  simp only [book, place, List.map_append, List.map_cons, List.map_nil, List.mem_append,
    List.mem_singleton] at firstIn secondIn
  rcases firstIn with oldFirst | rfl
  · rcases secondIn with oldSecond | rfl
    · exact unique first oldFirst second oldSecond sameExchange sameId named
    · exact absurd sameId (unlisted (sameId ▸ named) first oldFirst sameExchange)
  · rcases secondIn with oldSecond | rfl
    · exact absurd sameId.symm (unlisted named second oldSecond sameExchange.symm)
    · rfl

theorem unique_placeAll {plane placed : Plane} {session : String} {exchange : ExchangeId}
    {orders : List Order} (success : plane.placeAll session exchange orders = some placed)
    (unique : plane.UniqueIds) : placed.UniqueIds := by
  induction orders generalizing plane with
  | nil =>
    obtain rfl := Option.some.inj success
    exact unique
  | cons order rest ih =>
    simp only [placeAll] at success
    split at success
    · rename_i fresh
      exact ih success (unique_place fresh unique)
    · cases success

theorem unique_placeNew {plane : Plane} (session : String) (exchange : ExchangeId) (orders : List Order)
    (unique : plane.UniqueIds) : (plane.placeNew session exchange orders).UniqueIds := by
  induction orders generalizing plane with
  | nil => exact unique
  | cons order rest ih =>
    rw [placeNew_cons]
    apply ih
    split
    · rename_i fresh
      exact unique_place fresh unique
    · exact unique

theorem mem_book_placeNew {plane : Plane} {session : String} {exchange : ExchangeId} {orders : List Order}
    {ticket : Ticket} (member : ticket ∈ (plane.placeNew session exchange orders).book) :
    ticket ∈ plane.book ∨ (ticket.session = session ∧ ticket.exchange = exchange) := by
  induction orders generalizing plane with
  | nil => exact .inl member
  | cons order rest ih =>
    rw [placeNew_cons] at member
    rcases ih member with here | placed
    · split at here
      · simp only [book, place, List.map_append, List.map_cons, List.map_nil, List.mem_append,
          List.mem_singleton] at here
        rcases here with old | rfl
        · exact .inl old
        · exact .inr ⟨rfl, rfl⟩
      · exact .inl here
    · exact .inr placed

theorem book_placeNew_kept {plane : Plane} (session : String) (exchange : ExchangeId) (orders : List Order)
    {ticket : Ticket} (member : ticket ∈ plane.book) :
    ticket ∈ (plane.placeNew session exchange orders).book := by
  induction orders generalizing plane with
  | nil => exact member
  | cons order rest ih =>
    rw [placeNew_cons]
    apply ih
    split
    · simp only [book, place, List.map_append, List.mem_append]
      exact .inl member
    · exact member

/-- Each of the orders rests on the exchange, for the session or for whoever placed it before. -/
theorem placeNew_holds {plane : Plane} (session : String) {exchange : ExchangeId} {orders : List Order}
    {order : Order} (member : order ∈ orders) (usable : order.id ≠ "") :
    ∃ ticket ∈ (plane.placeNew session exchange orders).book,
      ticket.exchange = exchange ∧ ticket.order.id = order.id := by
  induction orders generalizing plane with
  | nil => cases member
  | cons first rest ih =>
    rcases List.mem_cons.mp member with rfl | later
    · by_cases fresh : plane.freshOn exchange order = true
      · refine ⟨⟨session, exchange, order⟩, ?_, rfl, rfl⟩
        rw [placeNew_cons, if_pos fresh]
        apply book_placeNew_kept
        simp [book, place, Placement.ticket]
      · obtain ⟨placed, listed, here, same⟩ : ∃ placed ∈ plane.venue, placed.exchange = exchange ∧
            placed.order.id = order.id := by
          simpa [freshOn, usable] using fresh
        exact ⟨placed.ticket, book_placeNew_kept session exchange _ (mem_book listed), here, same⟩
    · exact ih later

/-- Only submissions change the book; they go through `placeAll`. -/
theorem exec_venue {op : Op} {choice : Choice} {plane after : Plane} {ans : op.Ans}
    (fires : plane.exec op choice = some (ans, after)) :
    after.book = plane.book ∨ ∃ session exchange legs placed,
      op.places = some (session, exchange) ∧
        plane.placeAll session exchange legs = some placed ∧ after = placed := by
  cases op
  case touch | markTerminal | fetchMaxSnapshotSeq | addLogEvent | pushRing | send
      | addOrdersSubmitted =>
    obtain ⟨handle, found, same⟩ := Option.map_eq_some_iff.mp fires
    obtain ⟨_, rfl⟩ := Prod.mk.inj same
    exact .inl rfl
  case load | lastSeenElapsedMs | readPolicy | readClient | heartbeatIntervalMs | currentSeq
      | subscribe => exact .inl (by rw [read_plane fires])
  case createOrder request | createOrders request =>
    simp only [exec] at fires
    split at fires
    all_goals first
      | (obtain ⟨placed, success, same⟩ := Option.map_eq_some_iff.mp fires
         obtain ⟨_, rfl⟩ := Prod.mk.inj same
         exact .inr ⟨_, _, _, placed, rfl, success, rfl⟩)
      | (obtain ⟨_, rfl⟩ := Prod.mk.inj (Option.some.inj fires)
         exact .inl rfl)
      | cases fires
  all_goals
    left
    simp only [exec] at fires
    repeat' split at fires
    all_goals cases fires
    all_goals first
      | rfl
      | simp

theorem exec_book {op : Op} {choice : Choice} {plane after : Plane} {ans : op.Ans}
    (fires : plane.exec op choice = some (ans, after)) {ticket : Ticket}
    (member : ticket ∈ after.book) :
    ticket ∈ plane.book ∨ op.places = some (ticket.session, ticket.exchange) := by
  rcases exec_venue fires with same | ⟨session, exchange, legs, placed, places, success, rfl⟩
  · exact .inl (same ▸ member)
  · rw [book_placeAll success] at member
    rcases List.mem_append.mp member with old | new
    · exact .inl old
    · obtain ⟨order, _, rfl⟩ := List.mem_map.mp new
      exact .inr places

theorem exec_book_kept {op : Op} {choice : Choice} {plane after : Plane} {ans : op.Ans}
    (fires : plane.exec op choice = some (ans, after)) {ticket : Ticket}
    (member : ticket ∈ plane.book) : ticket ∈ after.book := by
  rcases exec_venue fires with same | ⟨session, exchange, legs, placed, places, success, rfl⟩
  · exact same ▸ member
  · rw [book_placeAll success]
    exact List.mem_append_left _ member

theorem exec_unique {op : Op} {choice : Choice} {plane after : Plane} {ans : op.Ans}
    (fires : plane.exec op choice = some (ans, after)) (unique : plane.UniqueIds) :
    after.UniqueIds := by
  rcases exec_venue fires with same | ⟨session, exchange, legs, placed, places, success, rfl⟩
  · unfold UniqueIds
    rw [same]
    exact unique
  · exact unique_placeAll success unique

theorem exec_createOrder {request : CreateOrderRequest} {choice : Choice} {plane after : Plane}
    {order : Order} (fires : plane.exec (.createOrder request) choice = some (.ok order, after)) :
    ⟨request.sessionId, request.exchangeId.getD default, order⟩ ∈ after.book := by
  simp only [exec] at fires
  split at fires
  · obtain ⟨placed, success, same⟩ := Option.map_eq_some_iff.mp fires
    obtain ⟨answered, rfl⟩ := Prod.mk.inj same
    obtain rfl := Except.ok.inj answered
    simp [book_placeAll success]
  · cases fires
  · obtain ⟨placed, success, same⟩ := Option.map_eq_some_iff.mp fires
    cases (Prod.mk.inj same).1
  · cases fires

theorem exec_createOrders {request : CreateOrdersRequest} {choice : Choice} {plane after : Plane}
    {orders : List Order} {order : Order}
    (fires : plane.exec (.createOrders request) choice = some (.ok orders, after))
    (listed : order ∈ orders) :
    ⟨request.sessionId, request.exchangeId.getD default, order⟩ ∈ after.book := by
  simp only [exec] at fires
  split at fires
  · obtain ⟨placed, success, same⟩ := Option.map_eq_some_iff.mp fires
    obtain ⟨answered, rfl⟩ := Prod.mk.inj same
    obtain rfl := Except.ok.inj answered
    simp [book_placeAll success, listed]
  · obtain ⟨placed, success, same⟩ := Option.map_eq_some_iff.mp fires
    cases (Prod.mk.inj same).1
  · cases fires

theorem exec_fetchOpenOrders {exchange : ExchangeId} {choice : Choice} {plane after : Plane}
    {orders : List Order} {order : Order}
    (fires : plane.exec (.fetchOpenOrders exchange) choice = some (.ok orders, after))
    (listed : order ∈ orders) : ∃ session, ⟨session, exchange, order⟩ ∈ plane.book := by
  simp only [exec] at fires
  split at fires
  · cases fires
  · obtain ⟨answered, _⟩ := Prod.mk.inj (Option.some.inj fires)
    obtain rfl := Except.ok.inj answered
    obtain ⟨placed, kept, rfl⟩ := List.mem_map.mp listed
    obtain ⟨present, here⟩ := List.mem_filter.mp kept
    have onExchange : placed.exchange = exchange := by
      simp only [Bool.and_eq_true, decide_eq_true_eq] at here
      exact here.2
    subst onExchange
    exact ⟨placed.session, mem_book present⟩
  · cases fires

theorem execRetried_book {op : Op} {choice : Choice} {plane after : Plane} {ans : op.Ans}
    (fires : plane.execRetried op choice = some (ans, after)) {ticket : Ticket}
    (member : ticket ∈ after.book) :
    ticket ∈ plane.book ∨ op.places = some (ticket.session, ticket.exchange) := by
  rcases execRetried_cases fires with plain | ⟨_, _, session, exchange, places, rfl⟩
  · exact exec_book plain member
  · rcases mem_book_placeNew member with old | ⟨rfl, rfl⟩
    · exact .inl old
    · exact .inr places

theorem execRetried_book_kept {op : Op} {choice : Choice} {plane after : Plane} {ans : op.Ans}
    (fires : plane.execRetried op choice = some (ans, after)) {ticket : Ticket}
    (member : ticket ∈ plane.book) : ticket ∈ after.book := by
  rcases execRetried_cases fires with plain | ⟨_, _, session, exchange, _, rfl⟩
  · exact exec_book_kept plain member
  · exact book_placeNew_kept session exchange _ member

theorem execRetried_unique {op : Op} {choice : Choice} {plane after : Plane} {ans : op.Ans}
    (fires : plane.execRetried op choice = some (ans, after)) (unique : plane.UniqueIds) :
    after.UniqueIds := by
  rcases execRetried_cases fires with plain | ⟨_, _, session, exchange, _, rfl⟩
  · exact exec_unique plain unique
  · exact unique_placeNew session exchange _ unique

/-- Whatever a submission is answered rests on its exchange. -/
theorem execRetried_answered {op : Op} {choice : Choice} {plane after : Plane} {ans : op.Ans}
    (fires : plane.execRetried op choice = some (ans, after)) {order : Order}
    (answered : order ∈ answeredOrders ⟨op, ans⟩) (usable : order.id ≠ "") :
    ∃ session exchange, op.places = some (session, exchange) ∧ ∃ ticket ∈ after.book,
      ticket.exchange = exchange ∧ ticket.order.id = order.id := by
  rcases execRetried_cases fires with plain | ⟨_, _, session, exchange, places, rfl⟩
  · cases op
    case createOrder request =>
      cases ans with
      | error error => cases answered
      | ok given =>
        obtain rfl := List.mem_singleton.mp answered
        exact ⟨_, _, rfl, _, exec_createOrder plain, rfl, rfl⟩
    case createOrders request =>
      cases ans with
      | error error => cases answered
      | ok given => exact ⟨_, _, rfl, _, exec_createOrders plain answered, rfl, rfl⟩
    all_goals cases answered
  · exact ⟨session, exchange, places, placeNew_holds session answered usable⟩

end Plane

section Executions

variable {ι : Type} {manager : SessionManager} {calls : ι → Call}
  {history pre post : List (Entry sig ι)} {before after : retriedMachine.State} {task : ι}
  {ticket : Ticket}

theorem book_grows (execution : Execution retriedMachine (Permitted manager calls) before history after)
    (member : ticket ∈ Plane.book before) : ticket ∈ Plane.book after := by
  induction execution with
  | start => exact member
  | step earlier choice fires meets ih => exact Plane.execRetried_book_kept fires ih

theorem unique_stays (execution : Execution retriedMachine (Permitted manager calls) before history after)
    (unique : Plane.UniqueIds before) : Plane.UniqueIds after := by
  induction execution with
  | start => exact unique
  | step earlier choice fires meets ih => exact Plane.execRetried_unique fires ih

/-- Every order in the book was there before, or some call placed it for that session
on that exchange. -/
theorem book_from (execution : Execution retriedMachine (Permitted manager calls) before history after)
    (member : ticket ∈ Plane.book after) :
    ticket ∈ Plane.book before ∨ ∃ task op, op ∈ (calls task).permits manager ∧
      Op.places op = some (ticket.session, ticket.exchange) ∧
      ∃ ans : op.Ans, Entry.of task op ans ∈ history := by
  induction execution with
  | start => exact .inl member
  | @step history task op ans last after earlier choice fires meets ih =>
    rcases Plane.execRetried_book fires member with old | places
    · rcases ih old with initial | ⟨placer, op, permitted, places, ans, performed⟩
      · exact .inl initial
      · exact .inr ⟨placer, op, permitted, places, ans, by simp [performed]⟩
    · exact .inr ⟨task, op, meets, places, ans, by simp⟩

end Executions

end LongTrader.Session
