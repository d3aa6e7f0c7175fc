import LongTrader.Session.Transitions

/-! The control plane over a venue that may answer a submission with an order that it holds already,
as one does that takes an order for a retry by its client order id. -/

namespace LongTrader.Session

open Interleave

/-- The orders with which the venue answers a submission. -/
def answeredOrders : Act sig → List Order
  | ⟨.createOrder _, .ok order⟩ => [order]
  | ⟨.createOrders _, .ok orders⟩ => orders
  | _ => []

/-- For whom and where an action places orders. -/
def Op.places : Op → Option (String × ExchangeId)
  | .createOrder request => some (request.sessionId, request.exchangeId.getD default)
  | .createOrders request => some (request.sessionId, request.exchangeId.getD default)
  | _ => none

namespace Plane

/-- The orders that the venue does not hold yet come to rest. -/
def placeNew (plane : Plane) (session : String) (exchange : ExchangeId) (orders : List Order) : Plane :=
  orders.foldl (fun plane order =>
    if plane.freshOn exchange order then plane.place session exchange order else plane) plane

/-- The plane with a venue that may answer a submission with orders that it holds already. -/
def execRetried (plane : Plane) (op : Op) (choice : Choice) : Option (op.Ans × Plane) :=
  match op with
  | .createOrder request => match choice with
    | .create (.accepted order) =>
      some (.ok order, plane.placeNew request.sessionId (request.exchangeId.getD default) [order])
    | choice => plane.exec (.createOrder request) choice
  | .createOrders request => match choice with
    | .batch (.accepted orders) =>
      some (.ok orders, plane.placeNew request.sessionId (request.exchangeId.getD default) orders)
    | choice => plane.exec (.createOrders request) choice
  | op => plane.exec op choice

theorem placeNew_cons (plane : Plane) (session : String) (exchange : ExchangeId) (order : Order)
    (rest : List Order) : plane.placeNew session exchange (order :: rest) =
      (if plane.freshOn exchange order then plane.place session exchange order else plane).placeNew session
        exchange rest := rfl

theorem placeNew_of_placeAll {plane placed : Plane} {session : String} {exchange : ExchangeId}
    {orders : List Order} (success : plane.placeAll session exchange orders = some placed) :
    plane.placeNew session exchange orders = placed := by
  induction orders generalizing plane with
  | nil => exact Option.some.inj success
  | cons order rest ih =>
    simp only [placeAll] at success
    split at success
    · rename_i fresh
      rw [placeNew_cons, if_pos fresh, ih success]
    · cases success

/-- A venue that answers no order twice is one that may. -/
theorem execRetried_of_exec {plane after : Plane} {op : Op} {choice : Choice} {ans : op.Ans}
    (fires : plane.exec op choice = some (ans, after)) :
    plane.execRetried op choice = some (ans, after) := by
  unfold execRetried
  split
  · split
    · obtain ⟨placed, success, same⟩ := Option.map_eq_some_iff.mp fires
      rw [placeNew_of_placeAll success]
      exact congrArg some same
    · exact fires
  · split
    · obtain ⟨placed, success, same⟩ := Option.map_eq_some_iff.mp fires
      rw [placeNew_of_placeAll success]
      exact congrArg some same
    · exact fires
  · exact fires

/-- An action of the plane, or an accepted submission of which the venue may hold some orders. -/
theorem execRetried_cases {plane after : Plane} {op : Op} {choice : Choice} {ans : op.Ans}
    (fires : plane.execRetried op choice = some (ans, after)) :
    plane.exec op choice = some (ans, after) ∨
      (inert op = true ∧ (∀ sid orders, op ≠ .trackOrders sid orders) ∧ ∃ session exchange,
        op.places = some (session, exchange) ∧
          after = plane.placeNew session exchange (answeredOrders ⟨op, ans⟩)) := by
  unfold execRetried at fires
  split at fires
  · split at fires
    · obtain ⟨rfl, rfl⟩ := Prod.mk.inj (Option.some.inj fires)
      exact .inr ⟨rfl, nofun, _, _, rfl, rfl⟩
    · exact .inl fires
  · split at fires
    · obtain ⟨rfl, rfl⟩ := Prod.mk.inj (Option.some.inj fires)
      exact .inr ⟨rfl, nofun, _, _, rfl, rfl⟩
    · exact .inl fires
  · exact .inl fires

theorem handles_placeNew (plane : Plane) (session : String) (exchange : ExchangeId) (orders : List Order) :
    (plane.placeNew session exchange orders).handles = plane.handles := by
  induction orders generalizing plane with
  | nil => rfl
  | cons order rest ih =>
    rw [placeNew_cons, ih]
    split <;> rfl

/-- The answers of the venue change no handle. -/
theorem execRetried_keeps_handle {op : Op} {choice : Choice} {plane after : Plane} {ans : op.Ans}
    {sid : String} {handle : SessionHandle} (fires : plane.execRetried op choice = some (ans, after))
    (found : plane.handles sid = some handle) :
    after.handles sid = some (effect op sid plane.now handle) := by
  rcases execRetried_cases fires with plain | ⟨passive, _, session, exchange, _, rfl⟩
  · exact exec_keeps_handle plain found
  · rw [handles_placeNew, effect_inert passive]
    exact found

end Plane

/-- The control plane over a venue that may repeat an answer, as a machine. -/
abbrev retriedMachine : Machine sig :=
  ⟨Plane, Choice, fun op choice plane => plane.execRetried op choice⟩

/-- A pool of concurrent calls over such a venue. -/
def retriedPool {ι : Type} (manager : SessionManager) (plane : Plane) (calls : ι → Call) :
    Config retriedMachine ι Outcome :=
  ⟨plane, fun task => (calls task).task manager⟩

section Executions

variable {ι : Type} {manager : SessionManager} {calls : ι → Call} {history pre post : List (Entry sig ι)}
  {before after : machine.State}

/-- What a plane over a venue that repeats no answer does, one over such a venue may do. -/
theorem execution_retried (execution : Execution machine (Permitted manager calls) before history after) :
    Execution retriedMachine (Permitted manager calls) before history after := by
  induction execution with
  | start => exact .start
  | step earlier choice fires meets ih => exact .step ih choice (Plane.execRetried_of_exec fires) meets

theorem retried_act_at {task : ι} {op : Op} {ans : op.Ans}
    (execution : Execution retriedMachine (Permitted manager calls) before
      (pre ++ Entry.of task op ans :: post) after) :
    ∃ middle next choice, Execution retriedMachine (Permitted manager calls) before pre middle ∧
      Plane.execRetried middle op choice = some (ans, next) ∧ op ∈ (calls task).permits manager ∧
      Execution retriedMachine (Permitted manager calls) next post after :=
  execution.at_entry

variable [DecidableEq ι] {plane : Plane}

theorem retriedPool_execution {config : Config retriedMachine ι Outcome}
    (run : Run (retriedPool manager plane calls) history config) :
    Execution retriedMachine (Permitted manager calls) plane history config.state :=
  run.execution fun task => (calls task).within_permits manager

end Executions

end LongTrader.Session
