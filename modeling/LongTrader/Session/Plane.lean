import LongTrader.Interleave.Alone
import LongTrader.Interleave.History
import LongTrader.Session.Handle

/-! The shared state of the control plane and its atomic actions: one load,
compare-and-swap or fetch-add, one critical section of a lock that is released
before the next await, or one round trip to the venue. -/

namespace LongTrader.Session

open Interleave

/-- An order the venue accepted: the session named by the request that created
it (empty for an operator), and the exchange it was placed on. -/
structure Placement where
  session : String
  exchange : ExchangeId
  order : Order
  isOpen : Bool
  deriving DecidableEq, Repr

structure Plane where
  handles : String → Option SessionHandle
  registry : List String
  venue : List Placement
  now : Nat

/-- How the venue answers a single submission. `lost` is an order the venue
holds although the caller is told of an error, as after a broken connection. -/
inductive CreateAnswer where
  | accepted (order : Order)
  | refused (error : PortError)
  | lost (order : Order) (error : PortError)
  deriving DecidableEq, Repr

/-- How the venue answers a batch. A failed batch has no partial-success channel:
the legs placed before the failure stay on the venue. -/
inductive BatchAnswer where
  | accepted (orders : List Order)
  | failed (placed : List Order) (error : PortError)
  deriving DecidableEq, Repr

/-- One cancel under its budget. -/
inductive CancelOutcome where
  | cancelled
  | refused (error : PortError)
  | elapsed
  deriving DecidableEq, Repr

inductive Recv where
  | event (event : StrategyEvent)
  | lagged (missed : Nat)
  | closed
  deriving DecidableEq, Repr

inductive Op where
  | get (sid : String)
  | insertSession (policy : SessionPolicy) (client : ClientIdentity)
  | load (sid : String)
  | cas (sid : String) (expected next : SessionState)
  | touch (sid : String)
  | lastSeenElapsedMs (sid : String)
  | readPolicy (sid : String)
  | updatePolicy (sid : String) (policy : KillSwitchPolicy)
  | readClient (sid : String)
  | heartbeatIntervalMs (sid : String)
  | markTerminal (sid : String)
  | fetchMaxSnapshotSeq (sid : String) (sequence : Nat)
  | addLogEvent (sid : String)
  | nextSeq (sid : String)
  | currentSeq (sid : String)
  | lockRing (sid : String)
  | pushRing (sid : String) (event : StrategyEvent)
  | readRing (sid : String)
  | send (sid : String) (event : StrategyEvent)
  | subscribe (sid : String)
  | recv (sid : String) (position : Nat)
  | forward (event : StrategyEvent)
  | trackOrders (sid : String) (orders : List Order)
  | addOrdersSubmitted (sid : String) (attributed : Nat)
  | trackedOrders (sid : String)
  | createOrder (request : CreateOrderRequest)
  | createOrders (request : CreateOrdersRequest)
  | fetchOpenOrders (exchange : ExchangeId)
  | cancelOrder (exchange : ExchangeId) (orderId : String)
  | cancelAllOrders (exchange : ExchangeId)
  | syncState (exchange : ExchangeId)
  | closeOrder (exchange : ExchangeId) (orderId : String)
  | advanceClock (elapsed : Nat)
  deriving DecidableEq

@[reducible] def Op.Ans : Op → Type
  | .get _ => Bool
  | .insertSession _ _ => String
  | .load _ => Option SessionState
  | .cas _ _ _ => Option SessionState
  | .lastSeenElapsedMs _ => Nat
  | .readPolicy _ => SessionPolicy
  | .updatePolicy _ _ => Except ManagerError Unit
  | .readClient _ => ClientIdentity
  | .heartbeatIntervalMs _ => Nat
  | .nextSeq _ => Nat
  | .currentSeq _ => Nat
  | .readRing _ => List StrategyEvent
  | .subscribe _ => Nat
  | .recv _ _ => Recv
  | .trackOrders _ _ => Nat
  | .trackedOrders _ => List String
  | .createOrder _ => Except PortError Order
  | .createOrders _ => Except PortError (List Order)
  | .fetchOpenOrders _ => Except PortError (List Order)
  | .cancelOrder _ _ => CancelOutcome
  | .cancelAllOrders _ => Except PortError Unit
  | .syncState _ => Except PortError Nat
  | .touch _ | .markTerminal _ | .fetchMaxSnapshotSeq _ _ | .addLogEvent _ | .lockRing _
  | .pushRing _ _ | .send _ _ | .forward _ | .addOrdersSubmitted _ _ | .closeOrder _ _
  | .advanceClock _ => Unit

/-- What the environment decides where the shared state leaves it open: a fresh
id, the iteration order of a hash set, the answers of the venue. -/
inductive Choice where
  | none
  | ulid (id : String)
  | iteration (ids : List String)
  | create (answer : CreateAnswer)
  | batch (answer : BatchAnswer)
  | fetch (failure : Option PortError)
  | cancel (outcome : CancelOutcome) (effective : Bool)
  | cancelAll (failure : Option PortError)
  | snapshot (answer : Except PortError Nat)

namespace Plane

def setHandle (plane : Plane) (sid : String) (handle : SessionHandle) : Plane :=
  { plane with handles := Function.update plane.handles sid (some handle) }

/-- Change the handle of a session that exists. -/
def modify (plane : Plane) (sid : String) (change : SessionHandle → SessionHandle) :
    Option (Unit × Plane) :=
  (plane.handles sid).map fun handle => ((), plane.setHandle sid (change handle))

/-- Read the handle of a session that exists. -/
def read {α : Type} (plane : Plane) (sid : String) (view : SessionHandle → α) :
    Option (α × Plane) :=
  (plane.handles sid).map fun handle => (view handle, plane)

/-- A venue never gives two orders of one exchange the same non-empty id. -/
def freshOn (plane : Plane) (exchange : ExchangeId) (order : Order) : Bool :=
  order.id = "" || plane.venue.all fun placed =>
    !(placed.exchange = exchange && placed.order.id = order.id)

def place (plane : Plane) (session : String) (exchange : ExchangeId) (order : Order) : Plane :=
  { plane with venue := plane.venue ++ [⟨session, exchange, order, true⟩] }

def placeAll (plane : Plane) (session : String) (exchange : ExchangeId) :
    List Order → Option Plane
  | [] => some plane
  | order :: rest =>
    if plane.freshOn exchange order then
      (plane.place session exchange order).placeAll session exchange rest
    else none

def openOrders (plane : Plane) (exchange : ExchangeId) : List Order :=
  (plane.venue.filter fun placed => placed.isOpen && placed.exchange = exchange).map (·.order)

/-- The order leaves the book, by a cancel or by a fill. -/
def close (plane : Plane) (exchange : ExchangeId) (orderId : String) : Plane :=
  { plane with venue := plane.venue.map fun placed =>
      if placed.exchange = exchange ∧ placed.order.id = orderId
      then { placed with isOpen := false } else placed }

def closeAll (plane : Plane) (exchange : ExchangeId) : Plane :=
  { plane with venue := plane.venue.map fun placed =>
      if placed.exchange = exchange then { placed with isOpen := false } else placed }

def exec (plane : Plane) (op : Op) (choice : Choice) : Option (op.Ans × Plane) :=
  match op with
  | .get sid => some (decide (sid ∈ plane.registry), plane)
  | .insertSession policy client => match choice with
    | .ulid id =>
      if (plane.handles id).isSome then none
      else some (id, { plane.setHandle id (.attach id policy client plane.now) with
        registry := id :: plane.registry })
    | _ => none
  | .load sid => plane.read sid fun handle => SessionState.fromU8 handle.state
  | .cas sid expected next => match plane.handles sid with
    | none => none
    | some handle =>
      if handle.state = expected.toU8 then
        some (SessionState.fromU8 handle.state,
          plane.setHandle sid { handle with state := next.toU8 })
      else some ((none : Option SessionState), plane)
  | .touch sid => plane.modify sid fun handle => { handle with lastSeen := plane.now }
  | .lastSeenElapsedMs sid => plane.read sid fun handle =>
      (min ((plane.now - handle.lastSeen) / 1000000) (u64Size - 1) : Nat)
  | .readPolicy sid => plane.read sid (·.policy)
  | .updatePolicy sid policy => match plane.handles sid with
    | none => none
    | some handle =>
      let (updated, answer) := applyPolicy handle.policy policy
      some (answer, plane.setHandle sid { handle with policy := updated })
  | .readClient sid => plane.read sid (·.client)
  | .heartbeatIntervalMs sid => plane.read sid (·.heartbeatIntervalMs)
  | .markTerminal sid => plane.modify sid fun handle =>
      { handle with terminalAt := handle.terminalAt.orElse fun _ => some plane.now }
  | .fetchMaxSnapshotSeq sid sequence => plane.modify sid fun handle =>
      { handle with snapshotSeq := max handle.snapshotSeq sequence }
  | .addLogEvent sid => plane.modify sid fun handle =>
      { handle with logEvents := (handle.logEvents + 1) % u64Size }
  | .nextSeq sid => match plane.handles sid with
    | none => none
    | some handle =>
      let seq := (handle.seq + 1) % u64Size
      some (seq, plane.setHandle sid { handle with seq := seq })
  | .currentSeq sid => plane.read sid (·.seq)
  | .lockRing sid => match plane.handles sid with
    | none => none
    | some handle =>
      if handle.ringLocked then none
      else some ((), plane.setHandle sid { handle with ringLocked := true })
  | .pushRing sid event => plane.modify sid fun handle =>
      { handle with ring := pushTrim handle.ring event, ringLocked := false }
  | .readRing sid => match plane.handles sid with
    | none => none
    | some handle => some (handle.ring, plane.setHandle sid { handle with ringLocked := false })
  | .send sid event => plane.modify sid fun handle =>
      { handle with sent := handle.sent ++ [event] }
  | .subscribe sid => plane.read sid (·.sent.length)
  | .recv sid position => match plane.handles sid with
    | none => none
    | some handle =>
      let missed := handle.sent.length - position
      if EVENT_CHANNEL_CAPACITY < missed then
        some (.lagged (missed - EVENT_CHANNEL_CAPACITY), plane)
      else match handle.sent[position]? with
        | some event => some (.event event, plane)
        | none => if sid ∈ plane.registry then none else some (.closed, plane)
  | .forward _ => some ((), plane)
  | .trackOrders sid orders => match plane.handles sid with
    | none => none
    | some handle =>
      let (tracked, attributed) := Session.trackOrders handle.trackedCoids orders
      some (attributed, plane.setHandle sid { handle with trackedCoids := tracked })
  | .addOrdersSubmitted sid attributed => plane.modify sid fun handle =>
      { handle with ordersSubmitted := (handle.ordersSubmitted + attributed) % u64Size }
  | .trackedOrders sid => match plane.handles sid, choice with
    | some handle, .iteration ids =>
      if ids.isPerm handle.trackedCoids then some (ids, plane) else none
    | _, _ => none
  | .createOrder request => match choice with
    | .create (.accepted order) =>
      (plane.placeAll request.sessionId (request.exchangeId.getD default) [order]).map
        fun placed => (.ok order, placed)
    | .create (.refused error) => some (.error error, plane)
    | .create (.lost order error) =>
      (plane.placeAll request.sessionId (request.exchangeId.getD default) [order]).map
        fun placed => (.error error, placed)
    | _ => none
  | .createOrders request => match choice with
    | .batch (.accepted orders) =>
      (plane.placeAll request.sessionId (request.exchangeId.getD default) orders).map
        fun placed => (.ok orders, placed)
    | .batch (.failed legs error) =>
      (plane.placeAll request.sessionId (request.exchangeId.getD default) legs).map
        fun placed => (.error error, placed)
    | _ => none
  | .fetchOpenOrders exchange => match choice with
    | .fetch (some error) => some (.error error, plane)
    | .fetch none => some (.ok (plane.openOrders exchange), plane)
    | _ => none
  | .cancelOrder exchange orderId => match choice with
    | .cancel .cancelled _ => some (.cancelled, plane.close exchange orderId)
    | .cancel (.refused error) _ => some (.refused error, plane)
    | .cancel .elapsed effective =>
      some (.elapsed, if effective then plane.close exchange orderId else plane)
    | _ => none
  | .cancelAllOrders exchange => match choice with
    | .cancelAll (some error) => some (.error error, plane)
    | .cancelAll none => some (.ok (), plane.closeAll exchange)
    | _ => none
  | .syncState _ => match choice with
    | .snapshot answer => some (answer, plane)
    | _ => none
  | .closeOrder exchange orderId => some ((), plane.close exchange orderId)
  | .advanceClock elapsed => some ((), { plane with now := plane.now + elapsed })

/-- What an action does to the handle of session `sid`. -/
def effect (op : Op) (sid : String) (now : Nat) (handle : SessionHandle) : SessionHandle :=
  match op with
  | .cas target expected next =>
    if target = sid ∧ handle.state = expected.toU8 then { handle with state := next.toU8 }
    else handle
  | .touch target => if target = sid then { handle with lastSeen := now } else handle
  | .updatePolicy target policy =>
    if target = sid then { handle with policy := (applyPolicy handle.policy policy).1 } else handle
  | .markTerminal target =>
    if target = sid then
      { handle with terminalAt := handle.terminalAt.orElse fun _ => some now }
    else handle
  | .fetchMaxSnapshotSeq target sequence =>
    if target = sid then { handle with snapshotSeq := max handle.snapshotSeq sequence } else handle
  | .addLogEvent target =>
    if target = sid then { handle with logEvents := (handle.logEvents + 1) % u64Size } else handle
  | .nextSeq target =>
    if target = sid then { handle with seq := (handle.seq + 1) % u64Size } else handle
  | .lockRing target => if target = sid then { handle with ringLocked := true } else handle
  | .pushRing target event =>
    if target = sid then { handle with ring := pushTrim handle.ring event, ringLocked := false }
    else handle
  | .readRing target => if target = sid then { handle with ringLocked := false } else handle
  | .send target event =>
    if target = sid then { handle with sent := handle.sent ++ [event] } else handle
  | .trackOrders target orders =>
    if target = sid then
      { handle with trackedCoids := (Session.trackOrders handle.trackedCoids orders).1 }
    else handle
  | .addOrdersSubmitted target attributed =>
    if target = sid then
      { handle with ordersSubmitted := (handle.ordersSubmitted + attributed) % u64Size }
    else handle
  | _ => handle

theorem handles_placeAll {plane placed : Plane} {session : String} {exchange : ExchangeId}
    {orders : List Order} (success : plane.placeAll session exchange orders = some placed) :
    placed.handles = plane.handles ∧ placed.registry = plane.registry ∧ placed.now = plane.now := by
  induction orders generalizing plane with
  | nil =>
    obtain rfl := Option.some.inj success
    exact ⟨rfl, rfl, rfl⟩
  | cons order rest ih =>
    simp only [placeAll] at success
    split at success
    · have placed := ih success
      simpa [place] using placed
    · cases success

theorem read_plane {α : Type} {plane after : Plane} {sid : String} {view : SessionHandle → α}
    {seen : α} (fires : plane.read sid view = some (seen, after)) : after = plane := by
  obtain ⟨handle, found, same⟩ := Option.map_eq_some_iff.mp fires
  exact (Prod.mk.inj same).2.symm

theorem handles_modify {plane after : Plane} {sid : String} {answer : Unit}
    {change : SessionHandle → SessionHandle} (fires : plane.modify sid change = some (answer, after))
    (other : String) :
    after.handles other = (plane.handles other).map fun handle =>
      if sid = other then change handle else handle := by
  obtain ⟨handle, found, same⟩ := Option.map_eq_some_iff.mp fires
  obtain ⟨_, rfl⟩ := Prod.mk.inj same
  by_cases here : sid = other
  · subst here
    simp [setHandle, found]
  · simp [setHandle, here, Function.update_of_ne (Ne.symm here)]

theorem handles_setHandle {plane : Plane} {op : Op} {target : String}
    {handle changed : SessionHandle} (found : plane.handles target = some handle)
    (here : effect op target plane.now handle = changed)
    (elsewhere : ∀ other, target ≠ other → ∀ kept, effect op other plane.now kept = kept)
    (sid : String) :
    (plane.setHandle target changed).handles sid =
      (plane.handles sid).map (effect op sid plane.now) := by
  by_cases same : target = sid
  · subst same
    simp [setHandle, found, here]
  · have inert : effect op sid plane.now = id := funext (elsewhere sid same)
    simp [setHandle, inert, Function.update_of_ne (Ne.symm same)]

/-- The actions that read the plane or move the venue, and change no handle. -/
def inert : Op → Bool
  | .get _ | .load _ | .lastSeenElapsedMs _ | .readPolicy _ | .readClient _ | .heartbeatIntervalMs _
  | .currentSeq _ | .subscribe _ | .recv .. | .forward _ | .trackedOrders _ | .createOrder _
  | .createOrders _ | .fetchOpenOrders _ | .cancelOrder .. | .cancelAllOrders _ | .syncState _
  | .closeOrder .. | .advanceClock _ => true
  | _ => false

theorem exec_inert {op : Op} (passive : inert op = true) {choice : Choice} {plane after : Plane}
    {ans : op.Ans} (fires : plane.exec op choice = some (ans, after)) :
    after.handles = plane.handles := by
  cases op
  case load | lastSeenElapsedMs | readPolicy | readClient | heartbeatIntervalMs | currentSeq
      | subscribe => rw [read_plane fires]
  case get | forward | closeOrder | advanceClock =>
    obtain ⟨_, rfl⟩ := Prod.mk.inj (Option.some.inj fires)
    rfl
  case recv target position =>
    simp only [exec] at fires
    split at fires
    · cases fires
    · split at fires
      · obtain ⟨_, rfl⟩ := Prod.mk.inj (Option.some.inj fires)
        rfl
      · split at fires
        · obtain ⟨_, rfl⟩ := Prod.mk.inj (Option.some.inj fires)
          rfl
        · split at fires
          · cases fires
          · obtain ⟨_, rfl⟩ := Prod.mk.inj (Option.some.inj fires)
            rfl
  case trackedOrders target =>
    simp only [exec] at fires
    split at fires
    · split at fires
      · obtain ⟨_, rfl⟩ := Prod.mk.inj (Option.some.inj fires)
        rfl
      · cases fires
    · cases fires
  case createOrder request | createOrders request =>
    simp only [exec] at fires
    split at fires
    all_goals first
      | (obtain ⟨placed, success, same⟩ := Option.map_eq_some_iff.mp fires
         obtain ⟨_, rfl⟩ := Prod.mk.inj same
         exact (handles_placeAll success).1)
      | (obtain ⟨_, rfl⟩ := Prod.mk.inj (Option.some.inj fires)
         rfl)
      | cases fires
  case fetchOpenOrders | cancelOrder | cancelAllOrders | syncState =>
    simp only [exec] at fires
    split at fires
    all_goals first
      | (obtain ⟨_, rfl⟩ := Prod.mk.inj (Option.some.inj fires)
         first | rfl | (split <;> rfl))
      | cases fires
  all_goals cases passive

theorem effect_inert {op : Op} (passive : inert op = true) (sid : String) (now : Nat) :
    effect op sid now = id := by
  cases op
  all_goals first
    | rfl
    | cases passive

/-- A swap leaves the handle alone unless it finds the state it expects. -/
theorem handles_cas {plane after : Plane} {target : String} {expected next : SessionState}
    {choice : Choice} {swapped : Option SessionState}
    (fires : plane.exec (.cas target expected next) choice = some (swapped, after)) (sid : String) :
    after.handles sid = (plane.handles sid).map (effect (.cas target expected next) sid plane.now) := by
  simp only [exec] at fires
  split at fires
  · cases fires
  · rename_i handle found
    split at fires
    · rename_i matched
      obtain ⟨_, rfl⟩ := Prod.mk.inj (Option.some.inj fires)
      apply handles_setHandle found
      · simp [effect, matched]
      · intro other away kept
        simp [effect, away]
    · rename_i differs
      obtain ⟨_, rfl⟩ := Prod.mk.inj (Option.some.inj fires)
      by_cases here : target = sid
      · subst here
        simp [found, effect, differs]
      · have still : effect (.cas target expected next) sid plane.now = id := by
          funext kept
          simp [effect, here]
        simp [still]

/-- Every action leaves each handle as `effect` says; only an attach adds one. -/
theorem exec_handles {op : Op} {choice : Choice} {plane after : Plane} {ans : op.Ans}
    (fires : plane.exec op choice = some (ans, after))
    (attached : ∀ policy client, op ≠ .insertSession policy client) (sid : String) :
    after.handles sid = (plane.handles sid).map (effect op sid plane.now) := by
  by_cases passive : inert op = true
  · simp [exec_inert passive fires, effect_inert passive]
  · cases op
    case insertSession policy client => exact absurd rfl (attached policy client)
    case touch | markTerminal | fetchMaxSnapshotSeq | addLogEvent | pushRing | send
        | addOrdersSubmitted => exact handles_modify fires sid
    case cas target expected next => exact handles_cas fires sid
    case updatePolicy target policy | nextSeq target | readRing target | trackOrders target orders =>
      simp only [exec] at fires
      split at fires
      · cases fires
      · rename_i handle found
        obtain ⟨_, rfl⟩ := Prod.mk.inj (Option.some.inj fires)
        apply handles_setHandle found
        · simp [effect]
        · intro other away kept
          simp [effect, away]
    case lockRing target =>
      simp only [exec] at fires
      split at fires
      · cases fires
      · rename_i handle found
        split at fires
        · cases fires
        · obtain ⟨_, rfl⟩ := Prod.mk.inj (Option.some.inj fires)
          apply handles_setHandle found
          · simp [effect]
          · intro other away kept
            simp [effect, away]
    all_goals exact absurd rfl passive

theorem registry_modify {plane after : Plane} {sid : String} {answer : Unit}
    {change : SessionHandle → SessionHandle}
    (fires : plane.modify sid change = some (answer, after)) : after.registry = plane.registry := by
  obtain ⟨handle, found, same⟩ := Option.map_eq_some_iff.mp fires
  obtain ⟨_, rfl⟩ := Prod.mk.inj same
  rfl

/-- No action takes a session out of the registry. -/
theorem exec_registry {op : Op} {choice : Choice} {plane after : Plane} {ans : op.Ans}
    {sid : String} (fires : plane.exec op choice = some (ans, after))
    (registered : sid ∈ plane.registry) : sid ∈ after.registry := by
  cases op
  case touch | markTerminal | fetchMaxSnapshotSeq | addLogEvent | pushRing | send
      | addOrdersSubmitted => exact (registry_modify fires).symm ▸ registered
  case load | lastSeenElapsedMs | readPolicy | readClient | heartbeatIntervalMs | currentSeq
      | subscribe => exact read_plane fires ▸ registered
  case createOrder | createOrders =>
    simp only [exec] at fires
    split at fires
    all_goals first
      | (obtain ⟨placed, success, same⟩ := Option.map_eq_some_iff.mp fires
         obtain ⟨_, rfl⟩ := Prod.mk.inj same
         exact (handles_placeAll success).2.1 ▸ registered)
      | (obtain ⟨_, rfl⟩ := Prod.mk.inj (Option.some.inj fires)
         exact registered)
      | cases fires
  all_goals
    simp only [exec] at fires
    repeat' split at fires
    all_goals cases fires
    all_goals first
      | exact registered
      | exact List.mem_cons_of_mem _ registered

end Plane

/-- The actions of the control plane. -/
abbrev sig : Signature := ⟨Op, Op.Ans⟩

/-- The control plane as a machine. -/
abbrev machine : Machine sig := ⟨Plane, Choice, fun op choice plane => plane.exec op choice⟩

abbrev Task (Result : Type) := Proc sig Result

/-- The task that performs one action of the plane. -/
abbrev perform (op : Op) : Task op.Ans := @Proc.perform sig op

instance (op : Op) : Nonempty op.Ans := by
  cases op
  all_goals
    first
      | exact ⟨default⟩
      | exact ⟨.error .unauthenticated⟩
      | exact ⟨.error (.transport "")⟩
      | exact ⟨.closed⟩
      | exact ⟨.elapsed⟩
      | exact ⟨⟨"", ""⟩⟩

section Alone

variable {α : Type} {before after : Plane} {result : α} {sid : String}

/-- A task that starts by looking a session up. -/
theorem alone_get {f : Bool → Task α}
    (alone : Alone machine (perform (.get sid) >>= f) before result after) :
    Alone machine (f (decide (sid ∈ before.registry))) before result after := by
  obtain ⟨_, registered, middle, gets, rest⟩ := alone_perform.mp alone
  obtain ⟨rfl, rfl⟩ := Prod.mk.inj (Option.some.inj gets)
  exact rest

/-- A task that starts by reading a session. -/
theorem alone_read {op : Op} {f : op.Ans → Task α} {view : SessionHandle → op.Ans}
    (alone : Alone machine (perform op >>= f) before result after)
    (reads : ∀ choice, before.exec op choice = before.read sid view) :
    ∃ handle, before.handles sid = some handle ∧ Alone machine (f (view handle)) before result after := by
  obtain ⟨choice, answer, middle, fires, rest⟩ := alone_perform.mp alone
  obtain ⟨handle, found, same⟩ := Option.map_eq_some_iff.mp ((reads choice).symm.trans fires)
  obtain ⟨rfl, rfl⟩ := Prod.mk.inj same
  exact ⟨handle, found, rest⟩

end Alone

end LongTrader.Session
