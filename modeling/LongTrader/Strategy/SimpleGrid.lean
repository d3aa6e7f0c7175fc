import LongTrader.Strategy.Order
import Mathlib.Logic.Function.Basic

/-! The simple grid: it seeds a ladder of limit orders, flips the levels that are gone from the
book, gives up behind a kill switch, and takes its ladder back from a state file after a restart. -/

namespace LongTrader.Strategy.SimpleGrid

structure SimpleGridConfig (P : Type) where
  lowerPrice : P
  upperPrice : P
  numLevels : Nat
  stateFile : Option String

/-- A level of the ladder. It is also what the venue holds of an order of the grid, with the order id
that the grid knows of it: the quantity is the same in all of them. -/
structure GridLevel (P : Type) where
  price : P
  side : OrderSide
  clientOrderId : String
  orderId : String
  deriving DecidableEq, Repr

/-- `SimpleGrid::max_consecutive_errors`. -/
def maxConsecutiveErrors : Nat := 5

/-- The prices of a ticker. -/
structure Ticker (P : Type) where
  last : Option (Except DecimalConvertError P)
  close : Option (Except DecimalConvertError P)
  bid : Option (Except DecimalConvertError P)
  ask : Option (Except DecimalConvertError P)

/-- What the venue shows of an open order. A venue that does not echo client order ids shows empty ones. -/
structure OpenOrder (P : Type) where
  clientOrderId : String
  price : Option (Except DecimalConvertError P)

/-- The price of an open order, if it has one that can be decoded. -/
def OpenOrder.livePrice {P : Type} (order : OpenOrder P) : Option P :=
  match order.price with
  | some (.ok price) => some price
  | _ => none

/-- What the venue, the state file and the generator of client order ids answer in one cycle. The
submissions are counted from the first of the cycle; a cancel is answered by the id of its order. The
open orders are whatever the venue shows. -/
structure Poll (P : Type) where
  ticker : Except PortError (Ticker P)
  stateReadable : Bool
  openOrders : Except PortError (List (OpenOrder P))
  ulids : Nat → String
  creates : Nat → CreateAnswer
  cancels : String → Option PortError

/-- The open orders of a cycle that reads them. -/
def Poll.shown {P : Type} (poll : Poll P) : List (OpenOrder P) :=
  match poll.openOrders with
  | .ok shown => shown
  | .error _ => []

section Ladder

variable {P : Type} [LinearOrder P] [Zero P] [Add P] [Sub P] [Div P] [NatCast P]

/-- `grid::grid_step`. -/
def gridStep (config : SimpleGridConfig P) : P :=
  if 0 < config.numLevels then (config.upperPrice - config.lowerPrice) / (config.numLevels : P) else 0

/-- `grid::side_for`. -/
def sideFor (price current : P) : OrderSide := if price < current then .buy else .sell

/-- The client order id of a ULID. -/
def coid (ulid : String) : String := "grid-" ++ ulid

/-- The loop of `calculate_levels`, with how many levels it may still add and how many it has. -/
def levelsFrom (config : SimpleGridConfig P) (current : P) (ulids : Nat → String) :
    Nat → Nat → P → List (GridLevel P)
  | 0, _, _ => []
  | room + 1, count, price =>
    if price ≤ config.upperPrice then
      ⟨price, sideFor price current, coid (ulids count), ""⟩ ::
        levelsFrom config current ulids room (count + 1) (price + gridStep config)
    else []

/-- `grid::calculate_levels`. -/
def calculateLevels (config : SimpleGridConfig P) (current : P) (ulids : Nat → String) :
    List (GridLevel P) :=
  if gridStep config ≤ 0 then [] else levelsFrom config current ulids (config.numLevels + 1) 0 config.lowerPrice

/-- `SimpleGrid::usable_price`. -/
def usablePrice : Option (Except DecimalConvertError P) → Option P
  | some (.ok price) => if 0 < price then some price else none
  | _ => none

/-- `SimpleGrid::current_price`; `none` is any of its errors. -/
def currentPrice (poll : Poll P) : Option P :=
  match poll.ticker with
  | .error _ => none
  | .ok ticker => match usablePrice ticker.last, usablePrice ticker.close with
    | some price, _ => some price
    | none, some price => some price
    | none, none => match usablePrice ticker.bid, usablePrice ticker.ask with
      | some bid, some ask => some ((bid + ask) / ((2 : Nat) : P))
      | _, _ => none

/-- The ladders that are saved, by the path of the file. A ladder reads back from its JSON as it was
written. -/
abbrev Files (P : Type) := String → Option (List (GridLevel P))

/-- `persistence::persist_levels`, with a save that succeeds. -/
def persistLevels (config : SimpleGridConfig P) (levels : List (GridLevel P)) (files : Files P) : Files P :=
  match config.stateFile with
  | none => files
  | some path => Function.update files path (some levels)

/-- Whether a price is in the band. -/
def SimpleGridConfig.inBand (config : SimpleGridConfig P) (price : P) : Bool :=
  config.lowerPrice ≤ price && price ≤ config.upperPrice

/-- `persistence::restore_levels`, of a file that can be read. -/
def restoreLevels (config : SimpleGridConfig P) (files : Files P) : List (GridLevel P) :=
  match config.stateFile with
  | none => []
  | some path => match files path with
    | none => []
    | some rows => rows.filter fun level => config.inBand level.price

end Ladder

section Rebalance

variable {P : Type} [LinearOrder P] [Zero P] [Add P] [Sub P] [Div P] [NatCast P]

/-- What the placements of a cycle come to: the levels as they are tracked then, the orders that the
venue has accepted, and the number of errors. -/
structure Placements (P : Type) where
  levels : List (GridLevel P)
  accepted : List (GridLevel P)
  errors : Nat

/-- `SimpleGrid::place_level_order`, and the level in front of the others. An order whose answer is lost
rests without an id that the grid knows. -/
def placeLevelOrder (answer : CreateAnswer) (level : GridLevel P) (rest : Placements P) : Placements P :=
  match answer with
  | .accepted orderId =>
    let placed := { level with orderId }
    ⟨placed :: rest.levels, placed :: rest.accepted, rest.errors⟩
  | .refused _ => ⟨level :: rest.levels, rest.accepted, rest.errors + 1⟩
  | .lost _ => ⟨level :: rest.levels, level :: rest.accepted, rest.errors + 1⟩

/-- The placements of a fresh ladder. -/
def placeLevels (creates : Nat → CreateAnswer) : Nat → List (GridLevel P) → Placements P
  | _, [] => ⟨[], [], 0⟩
  | count, level :: rest => placeLevelOrder (creates count) level (placeLevels creates (count + 1) rest)

/-- The other side of a level that is gone, one step away. -/
def flip (config : SimpleGridConfig P) (ulid : String) (level : GridLevel P) : GridLevel P where
  price := match level.side with
    | .sell => level.price - gridStep config
    | _ => level.price + gridStep config
  side := match level.side with
    | .sell => .buy
    | _ => .sell
  clientOrderId := coid ulid
  orderId := ""

/-- The flips of the levels that the venue does not show. -/
def flipLevels (config : SimpleGridConfig P) (poll : Poll P) (alive : GridLevel P → Bool) :
    Nat → List (GridLevel P) → Placements P
  | _, [] => ⟨[], [], 0⟩
  | count, level :: rest =>
    let flipped := flip config (poll.ulids count) level
    if alive level then
      let tail := flipLevels config poll alive count rest
      { tail with levels := level :: tail.levels }
    else if flipped.price < config.lowerPrice ∨ config.upperPrice < flipped.price then
      let tail := flipLevels config poll alive count rest
      { tail with levels := level :: tail.levels }
    else placeLevelOrder (poll.creates count) flipped (flipLevels config poll alive (count + 1) rest)

/-- `SimpleGrid::cancel_tracked_orders`: what is left on the book. -/
def cancelTrackedOrders (cancels : String → Option PortError) (levels book : List (GridLevel P)) :
    List (GridLevel P) :=
  levels.foldl
    (fun book level =>
      if level.orderId = "" then book
      else match cancels level.orderId with
        | some _ => book
        | none => book.filter fun order => order.orderId ≠ level.orderId)
    book

/-- Whether the venue shows a level, by its client order id or by its price. -/
def isAlive (shown : List (OpenOrder P)) (level : GridLevel P) : Bool :=
  let liveCoids := shown.map OpenOrder.clientOrderId
  let livePrices := shown.filterMap OpenOrder.livePrice
  liveCoids.contains level.clientOrderId || livePrices.contains level.price

/-- The process, the state files and the orders of the grid that rest on the venue. -/
structure World (P : Type) where
  config : SimpleGridConfig P
  levels : List (GridLevel P)
  files : Files P
  book : List (GridLevel P)

/-- What the kill switch leaves. -/
def World.trip (world : World P) (poll : Poll P) (placements : Placements P) : World P :=
  { world with
    levels := []
    files := persistLevels world.config [] world.files
    book := cancelTrackedOrders poll.cancels placements.levels (world.book ++ placements.accepted) }

/-- A fresh ladder is seeded. -/
def World.seed (world : World P) (poll : Poll P) (placements : Placements P) : World P :=
  if maxConsecutiveErrors ≤ placements.errors then world.trip poll placements
  else { world with
    levels := placements.levels
    files := persistLevels world.config placements.levels world.files
    book := world.book ++ placements.accepted }

/-- The ladder is brought up to date with the book. -/
def World.update (world : World P) (poll : Poll P) (placements : Placements P) : World P :=
  if maxConsecutiveErrors ≤ placements.errors then world.trip poll placements
  else { world with levels := placements.levels, book := world.book ++ placements.accepted }

/-- What a cycle comes to: it fails, or it takes up the saved ladder, or it places orders, of a fresh
ladder or of the levels that are gone. -/
inductive Cycle (P : Type) where
  | fails
  | resumes (levels : List (GridLevel P))
  | seeds (placements : Placements P)
  | flips (placements : Placements P)

def World.cycle (world : World P) (poll : Poll P) : Cycle P :=
  match currentPrice poll with
  | none => .fails
  | some current =>
    if world.levels = [] then
      if poll.stateReadable then
        let restored := restoreLevels world.config world.files
        if restored = [] then
          .seeds (placeLevels poll.creates 0 (calculateLevels world.config current poll.ulids))
        else .resumes restored
      else .fails
    else match poll.openOrders with
      | .error _ => .fails
      | .ok shown => .flips (flipLevels world.config poll (isAlive shown) 0 world.levels)

/-- `SimpleGrid::rebalance`. -/
def World.rebalance (world : World P) (poll : Poll P) : World P :=
  match world.cycle poll with
  | .fails => world
  | .resumes levels => { world with levels }
  | .seeds placements => world.seed poll placements
  | .flips placements => world.update poll placements

/-- Whether a cycle brings the ladder up to date with the open orders. -/
def World.reconciles (world : World P) (poll : Poll P) : Bool :=
  match world.cycle poll with
  | .flips _ => true
  | .fails | .resumes _ | .seeds _ => false

/-- The orders that are placed in a cycle, and what becomes of its levels. -/
def Cycle.placements : Cycle P → Option (Placements P)
  | .fails | .resumes _ => none
  | .seeds placements | .flips placements => some placements

end Rebalance

section Runs

variable {P : Type} [LinearOrder P] [Zero P] [Add P] [Sub P] [Div P] [NatCast P]

/-- An order is filled or taken off the book, a cycle runs, or the process is started again. -/
inductive Event (P : Type) where
  | leaves (index : Nat)
  | rebalances (poll : Poll P)
  | restarts (config : SimpleGridConfig P)

/-- A first start. -/
def World.start (config : SimpleGridConfig P) : World P := ⟨config, [], fun _ => none, []⟩

def World.step (world : World P) : Event P → World P
  | .leaves index => { world with book := world.book.eraseIdx index }
  | .rebalances poll => world.rebalance poll
  | .restarts config => { world with config, levels := [] }

def World.run (world : World P) (events : List (Event P)) : World P := events.foldl World.step world

end Runs

end LongTrader.Strategy.SimpleGrid
