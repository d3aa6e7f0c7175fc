import LongTrader.Strategy.Order
import Mathlib.Logic.Function.Basic

/-! The hedged grid: a ladder of limit orders on the primary venue, and a market order on the
hedge venue for each of them that is no longer on the book. -/

namespace LongTrader.Strategy.HedgeGrid

structure HedgeGridConfig (P : Type) where
  primary : ExchangeId
  hedge : ExchangeId
  symbol : String
  lowerPrice : P
  upperPrice : P
  numLevels : Nat
  qtyPerLevel : P

/-- What the venues answer in one cycle. The hedges are counted from the first that is submitted in
it, and so are the legs of the ladder. -/
structure Poll (P : Type) where
  ticker : TickerRead P
  openOrders : Option PortError
  hedges : Nat → CreateAnswer
  legs : Nat → CreateAnswer

/-- How a cycle ends. -/
inductive Outcome where
  | idle
  | readFailed (error : PortError)
  | hedgeFailed (error : PortError)
  | legFailed (error : PortError)
  | seeded
  deriving DecidableEq, Repr

/-- The `Result` of a cycle. -/
def Outcome.result : Outcome → Except PortError Unit
  | .idle | .seeded => .ok ()
  | .readFailed error | .hedgeFailed error | .legFailed error => .error error

/-- What a cycle does: the ladder that it believes in afterwards, and the orders that the two
venues have accepted. -/
structure Cycle (P : Type) where
  outcome : Outcome
  believed : List (P × Bool)
  hedged : List (Request P)
  placed : List (Request P)

section Tick

variable {P : Type} [LinearOrder P] [Zero P] [Add P] [Sub P] [Div P] [NatCast P]

/-- The mid of a cycle. -/
def Poll.mid (poll : Poll P) : Except PortError P :=
  match poll.ticker with
  | .error error => .error error
  | .ok none => .ok 0
  | .ok (some (.error error)) => .error (.decimal error)
  | .ok (some (.ok last)) => .ok last

def HedgeGridConfig.step (config : HedgeGridConfig P) : P :=
  (config.upperPrice - config.lowerPrice) / (config.numLevels : P)

/-- `HashMap::insert`. -/
def insert (price : P) (isBuy : Bool) (levels : List (P × Bool)) : List (P × Bool) :=
  levels.filter (fun level => level.1 ≠ price) ++ [(price, isBuy)]

/-- The side that the venue reports for each resting price. -/
def live (orders : List (Request P)) : P → Option Bool :=
  orders.foldl
    (fun live order => match order.price with
      | some price => Function.update live price (some (order.side = .buy))
      | none => live)
    fun _ => none

/-- The levels of the believed ladder that are no longer on the book. -/
def missing (book : List (Request P)) (levels : List (P × Bool)) : List (P × Bool) :=
  levels.filter fun level => (live book level.1).isNone

/-- The hedging loop: what the hedge venue has accepted, and the error that ends it. -/
def hedgeLevels (config : HedgeGridConfig P) :
    (Nat → CreateAnswer) → List (P × Bool) → List (Request P) × Option PortError
  | _, [] => ([], none)
  | answers, (_, wasBuy) :: rest =>
    let order := marketOrder config.hedge config.symbol (!wasBuy) config.qtyPerLevel
    match answers 0 with
    | .refused error => ([], some error)
    | .lost error => ([order], some error)
    | .accepted _ =>
      let tail := hedgeLevels config (fun n => answers (n + 1)) rest
      (order :: tail.1, tail.2)

/-- The seeding loop: the ladder that is believed then, or the error that ends it, and what the
primary venue has accepted. It has no bound, and `none` is a loop that runs for more than `fuel`
rounds. -/
def seedLevels (config : HedgeGridConfig P) (mid : P) (live : P → Option Bool) :
    Nat → (Nat → CreateAnswer) → P → List (P × Bool) →
      Option (Except PortError (List (P × Bool)) × List (Request P))
  | 0, _, _, _ => none
  | fuel + 1, answers, price, believed =>
    if price ≤ config.upperPrice then
      match live price with
      | some restingIsBuy =>
        seedLevels config mid live fuel answers (price + config.step) (insert price restingIsBuy believed)
      | none =>
        let isBuy := decide (price < mid)
        let order := limitOrder config.primary config.symbol isBuy price config.qtyPerLevel
        match answers 0 with
        | .refused error => some (.error error, [])
        | .lost error => some (.error error, [order])
        | .accepted _ =>
          (seedLevels config mid live fuel (fun n => answers (n + 1)) (price + config.step)
            (insert price isBuy believed)).map fun tail => (tail.1, order :: tail.2)
    else some (.ok believed, [])

/-- `HedgeGrid::tick`, with the orders that rest on the primary venue and the levels in the order
in which the map is iterated. -/
def tick (config : HedgeGridConfig P) (fuel : Nat) (poll : Poll P) (book : List (Request P))
    (believed : List (P × Bool)) : Option (Cycle P) :=
  match poll.mid with
  | .error error => some ⟨.readFailed error, believed, [], []⟩
  | .ok mid =>
    if mid ≤ 0 then some ⟨.idle, believed, [], []⟩
    else if config.numLevels = 0 then some ⟨.idle, believed, [], []⟩
    else if config.step ≤ 0 then some ⟨.idle, believed, [], []⟩
    else match poll.openOrders with
      | some error => some ⟨.readFailed error, believed, [], []⟩
      | none =>
        -- From here on `believed` is taken out of the shared state.
        let hedges := hedgeLevels config poll.hedges (missing book believed)
        match hedges.2 with
        | some error => some ⟨.hedgeFailed error, [], hedges.1, []⟩
        | none => match seedLevels config mid (live book) fuel poll.legs config.lowerPrice [] with
          | none => none
          | some (.error error, placed) => some ⟨.legFailed error, [], hedges.1, placed⟩
          | some (.ok believed, placed) => some ⟨.seeded, believed, hedges.1, placed⟩

end Tick

section Runs

variable {P : Type} [LinearOrder P] [Zero P] [Add P] [Sub P] [Div P] [NatCast P]

/-- The strategy and the venues: the ladder that is believed, the grid's orders that rest on the
primary venue and those that have left it, and the orders that the hedge venue has accepted. -/
structure World (P : Type) where
  believed : List (P × Bool)
  book : List (Request P)
  departed : List (Request P)
  hedges : List (Request P)

/-- A new strategy. -/
def World.new : World P := ⟨[], [], [], []⟩

def World.after (world : World P) (cycle : Cycle P) : World P where
  believed := cycle.believed
  book := world.book ++ cycle.placed
  departed := world.departed
  hedges := world.hedges ++ cycle.hedged

/-- An order is filled, or the venue takes it off the book. -/
def World.without (world : World P) (front : List (Request P)) (order : Request P)
    (back : List (Request P)) : World P :=
  { world with book := front ++ back, departed := world.departed ++ [order] }

/-- Whether the strategy believes that an order rests. -/
def World.Believes (world : World P) (order : Request P) : Prop :=
  ∃ price isBuy, order.price = some price ∧ (price, isBuy) ∈ world.believed

/-- Whether there is a ladder to quote. -/
def Quotes (config : HedgeGridConfig P) : Prop := config.numLevels ≠ 0 ∧ 0 < config.step

/-- What takes a cycle to its hedges. -/
structure Poll.Hedges (config : HedgeGridConfig P) (poll : Poll P) : Prop where
  quotes : Quotes config
  priced : ∃ mid, poll.mid = .ok mid ∧ 0 < mid
  opened : poll.openOrders = none

/-- Whether each of these levels gets its hedge. The loop ends at the first error, so that only the last
answer may be lost. -/
def Covers (answers : Nat → CreateAnswer) (levels : List (P × Bool)) : Prop :=
  ∀ i < levels.length, (answers i).isOk ∨ i + 1 = levels.length ∧ (answers i).isAccepted

/-- The worlds that a run reaches, with whether it was sound: a failure of a hedge has left no level
without one, and no order left the book while the strategy did not believe that it rests. -/
inductive Reached (config : HedgeGridConfig P) : World P → Prop → Prop where
  | new : Reached config .new True
  | departs {world : World P} {sound : Prop} {front back : List (Request P)} {order : Request P} :
      Reached config world sound → world.book = front ++ order :: back →
      Reached config (world.without front order back) (sound ∧ world.Believes order)
  | polls {world : World P} {sound : Prop} {fuel : Nat} {poll : Poll P} {levels : List (P × Bool)}
      {cycle : Cycle P} :
      Reached config world sound → levels.Perm world.believed →
      tick config fuel poll world.book levels = some cycle →
      Reached config (world.after cycle) (sound ∧ (poll.Hedges config → Covers poll.hedges (missing world.book levels)))

end Runs

end LongTrader.Strategy.HedgeGrid
