import LongTrader.Strategy.SimpleGrid
import LongTrader.Indicators.Rational
import LongTrader.Indicators.Rounded
import Mathlib.Data.List.TakeWhile
import Mathlib.Tactic.Linarith
import Mathlib.Tactic.Ring

/-! The skewed grid: a ladder around a reservation price that moves against the inventory. Prices and
amounts are decimals of any arithmetic. -/

namespace LongTrader.Strategy.SkewedGrid

open Indicators
open SimpleGrid (Ticker)

structure SkewedGridConfig (P : Type) where
  gridTick : P
  numLevels : Nat
  gamma : P
  sigma : P
  timeHorizon : P

/-- A level of the ladder. It is also what the venue holds of an order of the grid, with the order id that
the grid knows of it: the quantity is the same in all of them. -/
structure GridLevel (P : Type) where
  price : P
  side : OrderSide
  clientOrderId : String
  orderId : String
  deriving DecidableEq, Repr

/-- `SkewedGrid::max_consecutive_errors`. -/
def maxConsecutiveErrors : Nat := 10

/-- `default_vol_window`, which the strategy takes whatever is configured. -/
def defaultVolWindow : Nat := 20

section Planning

variable {P : Type} [LinearOrder P] [Neg P] (arith : Arithmetic P)

/-- `reservation_price`; the outer `none` is the panic of an operator. -/
def reservationPrice (mid inventory gamma sigma timeHorizon : P) : Option (Option P) :=
  if gamma < arith.ofNat 0 ∨ sigma < arith.ofNat 0 then some none
  else do
    let weighted ← arith.mul inventory gamma
    let once ← arith.mul weighted sigma
    let twice ← arith.mul once sigma
    let skew ← arith.mul twice timeHorizon
    let price ← arith.sub mid skew
    return some price

/-- The sign of the steps away from the reservation price. -/
def direction (isBuy : Bool) : P := if isBuy then -arith.ofNat 1 else arith.ofNat 1

/-- The price of a round of the loop of `plan_skewed_grid`. -/
def priceAt (start gridTick : P) (isBuy : Bool) (i : Nat) : Option P := do
  let step ← arith.mul (direction arith isBuy) gridTick
  let away ← arith.mul step (arith.ofNat i)
  arith.add start away

/-- Whether a price is on its side of the mid. -/
def Inside (mid : P) (isBuy : Bool) (price : P) : Prop := if isBuy then price < mid else mid < price

instance (mid : P) (isBuy : Bool) (price : P) : Decidable (Inside mid isBuy price) :=
  inferInstanceAs (Decidable (if isBuy then _ else _))

/-- The loop of `plan_skewed_grid`, with how many levels are left and the number of the next one. -/
def planFrom (start mid gridTick : P) (isBuy : Bool) : Nat → Nat → Option (List P)
  | 0, _ => some []
  | left + 1, i => do
    let price ← priceAt arith start gridTick isBuy i
    if isBuy ∧ mid ≤ price then return []
    else if ¬ isBuy ∧ price ≤ mid then return []
    else
      let further ← planFrom start mid gridTick isBuy left (i + 1)
      return price :: further

/-- Where the loop of `plan_skewed_grid` starts. -/
def planStart (reservation gridTick : P) (isBuy : Bool) : Option P := do
  let step ← arith.mul (direction arith isBuy) gridTick
  arith.add reservation step

/-- `plan_skewed_grid`; `none` is the panic of an operator. -/
def planSkewedGrid (reservation mid gridTick : P) (numLevels : Nat) (isBuy : Bool) : Option (List P) :=
  if gridTick ≤ arith.ofNat 0 ∨ numLevels = 0 then some []
  else do
    let start ← planStart arith reservation gridTick isBuy
    planFrom arith start mid gridTick isBuy numLevels 0

variable {arith} {start mid gridTick : P} {isBuy : Bool}

/-- The loop ends at the first price that is not on its side of the mid. -/
theorem planFrom_succ (left i : Nat) :
    planFrom arith start mid gridTick isBuy (left + 1) i =
      (priceAt arith start gridTick isBuy i).bind fun price =>
        if Inside mid isBuy price then
          (planFrom arith start mid gridTick isBuy left (i + 1)).map (price :: ·)
        else some [] := by
  rw [planFrom]
  refine congrArg _ (funext fun price => ?_)
  cases isBuy
  · by_cases inside : price ≤ mid
    · simp [Inside, inside, not_lt.mpr inside]
    · simp [Inside, inside, not_le.mp inside, Option.map_eq_bind]
  · by_cases inside : mid ≤ price
    · simp [Inside, inside, not_lt.mpr inside]
    · simp [Inside, inside, not_le.mp inside, Option.map_eq_bind]

theorem planFrom_inside {left i : Nat} {prices : List P}
    (plans : planFrom arith start mid gridTick isBuy left i = some prices) :
    ∀ price ∈ prices, Inside mid isBuy price := by
  induction left generalizing i prices with
  | zero =>
    obtain rfl := Option.some.inj plans
    exact fun _ member => absurd member List.not_mem_nil
  | succ left ih =>
    rw [planFrom_succ] at plans
    obtain ⟨price, -, plans⟩ := Option.bind_eq_some_iff.mp plans
    split at plans
    · rename_i inside
      obtain ⟨further, planned, rfl⟩ := Option.map_eq_some_iff.mp plans
      exact List.forall_mem_cons.mpr ⟨inside, ih planned⟩
    · obtain rfl := Option.some.inj plans
      exact fun _ member => absurd member List.not_mem_nil

/-- What is planned is on its side of the mid. -/
theorem planSkewedGrid_inside {reservation : P} {numLevels : Nat} {prices : List P}
    (plans : planSkewedGrid arith reservation mid gridTick numLevels isBuy = some prices) :
    ∀ price ∈ prices, Inside mid isBuy price := by
  rw [planSkewedGrid] at plans
  split at plans
  · obtain rfl := Option.some.inj plans
    exact fun _ member => absurd member List.not_mem_nil
  · obtain ⟨_, -, plans⟩ := Option.bind_eq_some_iff.mp plans
    exact planFrom_inside plans

end Planning

section Candidates

variable {P : Type} [LinearOrder P] [Neg P] {arith : Arithmetic P} {value : P → ℚ}

/-- The price that is some steps away from the reservation price, in exact arithmetic. -/
def candidate (reservation gridTick : ℚ) (isBuy : Bool) (k : Nat) : ℚ :=
  reservation + (if isBuy then -1 else 1) * (k * gridTick)

/-- The candidate prices of a side, from the nearest to the reservation price. -/
def candidates (reservation gridTick : ℚ) (numLevels : Nat) (isBuy : Bool) : List ℚ :=
  (List.range' 1 numLevels).map (candidate reservation gridTick isBuy)

/-- The code computes a candidate as it is, with no panic and nothing rounded. -/
def ComputesAt (arith : Arithmetic P) (value : P → ℚ) (reservation gridTick : P) (isBuy : Bool) (i : Nat) :
    Prop :=
  ((planStart arith reservation gridTick isBuy).bind fun start =>
    priceAt arith start gridTick isBuy i).map value =
      some (candidate (value reservation) (value gridTick) isBuy (i + 1))

instance (arith : Arithmetic P) (value : P → ℚ) (reservation gridTick : P) (isBuy : Bool) (i : Nat) :
    Decidable (ComputesAt arith value reservation gridTick isBuy i) :=
  inferInstanceAs (Decidable (_ = _))

/-- The candidates of a side move away from the other one. -/
theorem inside_candidate {reservation mid gridTick : ℚ} {isBuy : Bool} (positive : 0 < gridTick)
    {near far : Nat} (further : near ≤ far)
    (inside : Inside mid isBuy (candidate reservation gridTick isBuy near)) :
    Inside mid isBuy (candidate reservation gridTick isBuy far) := by
  have steps : (near : ℚ) * gridTick ≤ (far : ℚ) * gridTick :=
    mul_le_mul_of_nonneg_right (Nat.cast_le.mpr further) positive.le
  cases isBuy <;> simp only [Inside, candidate, Bool.false_eq_true, if_true, if_false] at inside ⊢ <;>
    linarith

variable {reservation mid gridTick : P} {isBuy : Bool}

omit [Neg P] in
theorem value_inside_iff (increasing : StrictMono value) (price : P) :
    Inside (value mid) isBuy (value price) ↔ Inside mid isBuy price := by
  cases isBuy
  · exact increasing.lt_iff_lt
  · exact increasing.lt_iff_lt

/-- The loop returns a list of prices that are on their side just if it computes each of them. -/
theorem planFrom_map_value_iff (increasing : StrictMono value) {start : P} {prices : Nat → ℚ}
    (inside : ∀ i, Inside (value mid) isBuy (prices (i + 1))) (left i : Nat) :
    (planFrom arith start mid gridTick isBuy left i).map (List.map value) =
        some ((List.range' (i + 1) left).map prices) ↔
      ∀ j, i ≤ j → j < i + left → (priceAt arith start gridTick isBuy j).map value = some (prices (j + 1)) := by
  induction left generalizing i with
  | zero =>
    refine iff_of_true rfl fun j above below => ?_
    omega
  | succ left ih =>
    rw [List.range'_succ, planFrom_succ]
    have splits : (∀ j, i ≤ j → j < i + (left + 1) →
          (priceAt arith start gridTick isBuy j).map value = some (prices (j + 1))) ↔
        (priceAt arith start gridTick isBuy i).map value = some (prices (i + 1)) ∧
          ∀ j, i + 1 ≤ j → j < i + 1 + left →
            (priceAt arith start gridTick isBuy j).map value = some (prices (j + 1)) := by
      constructor
      · exact fun all => ⟨all i (le_refl i) (by omega), fun j above below => all j (by omega) (by omega)⟩
      · rintro ⟨first, others⟩ j above below
        rcases Nat.eq_or_lt_of_le above with rfl | later
        · exact first
        · exact others j later (by omega)
    rw [splits, ← ih (i + 1)]
    cases priceAt arith start gridTick isBuy i with
    | none => simp
    | some price =>
      by_cases within : Inside mid isBuy price
      · simp only [Option.bind_some, if_pos within, Option.map_map, Option.map_some, Option.some.injEq]
        cases planFrom arith start mid gridTick isBuy left (i + 1) with
        | none => simp
        | some further => simp
      · have other : value price ≠ prices (i + 1) := by
          intro same
          rw [← value_inside_iff increasing, same] at within
          exact within (inside i)
        simp [within, other]

/-- The first candidate is on its side of the mid if the code finds it to be, whatever it rounds. -/
theorem planStart_inside (rounds : arith.Rounds value) {start : P}
    (starts : planStart arith reservation gridTick isBuy = some start) :
    priceAt arith start gridTick isBuy 0 = some start ∧
      (Inside mid isBuy start → Inside (value mid) isBuy (candidate (value reservation) (value gridTick) isBuy 1)) := by
  obtain ⟨step, steps, added⟩ := Option.bind_eq_some_iff.mp starts
  have sign : value (direction arith isBuy) = if isBuy then -1 else 1 := by
    cases isBuy <;> simp [direction, rounds.neg, rounds.one]
  have tick : value step = (if isBuy then -1 else 1) * value gridTick := by
    have own : value (if isBuy then -gridTick else gridTick) =
        value (direction arith isBuy) * value gridTick := by
      rw [sign]
      cases isBuy <;> simp [rounds.neg]
    have exact := (rounds.mul (direction arith isBuy) gridTick).eq own
    rw [Option.some.inj (steps.symm.trans exact), own, sign]
  have still : arith.mul step (arith.ofNat 0) = some (arith.ofNat 0) :=
    (rounds.mul step _).eq (by rw [rounds.zero, mul_zero])
  have same : arith.add start (arith.ofNat 0) = some start :=
    (rounds.add start _).eq (by rw [rounds.zero, add_zero])
  refine ⟨by simp [priceAt, steps, still, same], ?_⟩
  have nearest := rounds.add reservation step
  have first : value reservation + value step = candidate (value reservation) (value gridTick) isBuy 1 := by
    rw [tick, candidate, Nat.cast_one, one_mul]
  rw [first] at nearest
  intro inside
  cases isBuy with
  | false =>
    refine not_le.mp fun beyond => ?_
    exact absurd (nearest.above start added mid beyond) (not_le.mpr inside)
  | true =>
    refine not_le.mp fun beyond => ?_
    exact absurd (nearest.below start added mid beyond) (not_le.mpr inside)

variable {numLevels : Nat}

/-- With the nearest candidate on its side, what is planned is all candidates just if the code computes
each of them. -/
theorem planFrom_eq_candidates_iff (rounds : arith.Rounds value) (positive : 0 < value gridTick)
    (some_asked : 0 < numLevels)
    (inside : Inside (value mid) isBuy (candidate (value reservation) (value gridTick) isBuy 1)) :
    ((planStart arith reservation gridTick isBuy).bind fun start =>
        planFrom arith start mid gridTick isBuy numLevels 0).map (List.map value) =
      some ((candidates (value reservation) (value gridTick) numLevels isBuy).filter
        (Inside (value mid) isBuy ·)) ↔
    ∀ i < numLevels, ComputesAt arith value reservation gridTick isBuy i := by
  have each : ∀ i, Inside (value mid) isBuy (candidate (value reservation) (value gridTick) isBuy (i + 1)) :=
    fun i => inside_candidate positive (by omega) inside
  have whole : (candidates (value reservation) (value gridTick) numLevels isBuy).filter
      (Inside (value mid) isBuy ·) = candidates (value reservation) (value gridTick) numLevels isBuy := by
    refine List.filter_eq_self.mpr fun price member => ?_
    obtain ⟨i, within, rfl⟩ := List.mem_map.mp member
    obtain ⟨k, rfl⟩ := Nat.exists_eq_add_of_le (List.mem_range'_1.mp within).1
    exact decide_eq_true (Nat.add_comm 1 k ▸ each k)
  rw [whole]
  cases starts : planStart arith reservation gridTick isBuy with
  | none => simpa [ComputesAt, starts] using ⟨0, some_asked⟩
  | some start =>
    have loop := @planFrom_map_value_iff P _ _ arith value mid gridTick isBuy rounds.strictMono start
      (candidate (value reservation) (value gridTick) isBuy) each numLevels 0
    rw [Option.bind_some, candidates, loop]
    simp [ComputesAt, starts]

/-- With the nearest candidate on the other side, nothing is planned, and this is right just if the
furthest one is on the other side too. -/
theorem planFrom_eq_nil_iff (rounds : arith.Rounds value) (positive : 0 < value gridTick)
    (some_asked : 0 < numLevels)
    (outside : ¬ Inside (value mid) isBuy (candidate (value reservation) (value gridTick) isBuy 1)) :
    ((planStart arith reservation gridTick isBuy).bind fun start =>
        planFrom arith start mid gridTick isBuy numLevels 0).map (List.map value) =
      some ((candidates (value reservation) (value gridTick) numLevels isBuy).filter
        (Inside (value mid) isBuy ·)) ↔
    ¬ Inside (value mid) isBuy (candidate (value reservation) (value gridTick) isBuy numLevels) ∧
      (planStart arith reservation gridTick isBuy).isSome := by
  cases starts : planStart arith reservation gridTick isBuy with
  | none => simp
  | some start =>
    obtain ⟨first, within⟩ := @planStart_inside P _ _ arith value reservation mid gridTick isBuy rounds start starts
    obtain ⟨left, rfl⟩ := Nat.exists_eq_succ_of_ne_zero some_asked.ne'
    rw [Option.bind_some, planFrom_succ, first, Option.bind_some, if_neg fun near => outside (within near)]
    simp only [Option.map_some, List.map_nil, Option.some.injEq, Option.isSome_some, and_true]
    rw [eq_comm, List.filter_eq_nil_iff]
    constructor
    · intro none_inside furthest
      refine none_inside _ (List.mem_map_of_mem (List.mem_range'_1.mpr ⟨?_, ?_⟩)) (decide_eq_true furthest)
      · exact Nat.le_add_left 1 left
      · omega
    · intro furthest price member near
      obtain ⟨i, place, rfl⟩ := List.mem_map.mp member
      refine furthest (inside_candidate positive ?_ (of_decide_eq_true near))
      have below := (List.mem_range'_1.mp place).2
      omega

/-- What is planned is all that is on its side of the mid just if the nearest candidate is and the code
computes all of them, or the furthest one is not and the code computes one at all. -/
theorem plan_eq_inside_iff (rounds : arith.Rounds value) (reservation mid gridTick : P) (numLevels : Nat)
    (isBuy : Bool) (positive : arith.ofNat 0 < gridTick) :
    (planSkewedGrid arith reservation mid gridTick numLevels isBuy).map (List.map value) =
        some ((candidates (value reservation) (value gridTick) numLevels isBuy).filter
          (Inside (value mid) isBuy ·)) ↔
      numLevels = 0 ∨
        Inside (value mid) isBuy (candidate (value reservation) (value gridTick) isBuy 1) ∧
          (∀ i < numLevels, ComputesAt arith value reservation gridTick isBuy i) ∨
        ¬ Inside (value mid) isBuy (candidate (value reservation) (value gridTick) isBuy numLevels) ∧
          (planStart arith reservation gridTick isBuy).isSome := by
  have steep : 0 < value gridTick := rounds.zero ▸ rounds.strictMono positive
  rcases Nat.eq_zero_or_pos numLevels with rfl | some_asked
  · simp [planSkewedGrid, candidates]
  rw [planSkewedGrid, if_neg (by simp [positive, some_asked.ne']), Option.bind_eq_bind]
  by_cases inside : Inside (value mid) isBuy (candidate (value reservation) (value gridTick) isBuy 1)
  · have furthest := inside_candidate steep some_asked inside
    rw [planFrom_eq_candidates_iff rounds steep some_asked inside]
    simp [inside, furthest, some_asked.ne']
  · rw [planFrom_eq_nil_iff rounds steep some_asked inside]
    simp [inside, some_asked.ne']

/-- With a short inventory of five the reservation price is 105 at a mid of 100, and of the ten buy
levels from 104 down to 95 none is planned. -/
theorem plan_stops_at_mid :
    reservationPrice Arithmetic.rounded 100 (-5) 1 1 1 = some (some 105) ∧
      planSkewedGrid Arithmetic.rounded 105 100 1 10 true = some [] ∧
      (candidates 105 1 10 true).filter (Inside 100 true ·) = [99, 98, 97, 96, 95] := by
  decide +kernel

theorem plan_eq_inside_around_mid :
    (0 : ℚ) < 1 ∧ (planSkewedGrid Arithmetic.rational (199 / 2) 100 1 3 true).map (List.map id) =
      some ((candidates (199 / 2) 1 3 true).filter (Inside 100 true ·)) :=
  ⟨by decide, (plan_eq_inside_iff rational_rounds (199 / 2) 100 1 3 true (by decide)).mpr
    (.inr (.inl ⟨by decide +kernel, by decide +kernel⟩))⟩

end Candidates

section Rebalance

variable {P : Type} [LinearOrder P]

/-- What the venue answers in one cycle, the order in which the set of the desired prices is iterated,
and the orders that fill while the cycle runs. The placements are counted from the first of the cycle;
a cancel is answered by the id of its order. -/
structure Poll (P : Type) where
  ticker : Except PortError (Ticker P)
  iterate : List P → List P
  iterated : ∀ prices, (iterate prices).Perm prices
  creates : Nat → CreateAnswer
  cancels : String → Option PortError
  fills : GridLevel P → Bool

/-- `SkewedGrid::usable_price`. -/
def usablePrice (arith : Arithmetic P) : Option (Except DecimalConvertError P) → Option P
  | some (.ok price) => if arith.ofNat 0 < price then some price else none
  | _ => none

/-- `SkewedGrid::current_mid`; `none` is any of its errors. -/
def currentMid (arith : Arithmetic P) (ticker : Except PortError (Ticker P)) : Option P :=
  match ticker with
  | .error _ => none
  | .ok ticker => match usablePrice arith ticker.last, usablePrice arith ticker.close with
    | some price, _ => some price
    | none, some price => some price
    | none, none => do
      let bid ← usablePrice arith ticker.bid
      let ask ← usablePrice arith ticker.ask
      let sum ← arith.add bid ask
      arith.div sum (arith.ofNat 2)

/-- The strategy and its orders that rest on the venue. -/
structure World (P : Type) where
  levels : List (GridLevel P)
  inventory : P
  lastMid : Option P
  volEma : Ema P
  book : List (GridLevel P)

/-- `SkewedGrid::update_volatility`, which leaves its estimate in the average; `none` is a panic. -/
def World.updateVolatility (arith : Arithmetic P) (world : World P) (mid : P) : Option (World P) :=
  match world.lastMid with
  | none => some { world with lastMid := some mid }
  | some prev => do
    let change ← arith.sub mid prev
    let volEma ← world.volEma.push arith (arith.abs change)
    return { world with lastMid := some mid, volEma }

/-- What the placements of a cycle come to: the levels of the orders that the venue has answered, the orders
that it has accepted, and the number of errors. -/
structure Placements (P : Type) where
  levels : List (GridLevel P)
  accepted : List (GridLevel P)
  errors : Nat

/-- `SkewedGrid::place_order` for one price after another. An order whose answer is lost rests without an id
that the grid knows. -/
def placeOrders (creates : Nat → CreateAnswer) : Nat → List (P × Bool) → Placements P
  | _, [] => ⟨[], [], 0⟩
  | count, (price, isBuy) :: rest =>
    let tail := placeOrders creates (count + 1) rest
    let level : GridLevel P := ⟨price, if isBuy then .buy else .sell, "", ""⟩
    match creates count with
    | .accepted orderId => ⟨{ level with orderId } :: tail.levels, { level with orderId } :: tail.accepted, tail.errors⟩
    | .refused _ => { tail with errors := tail.errors + 1 }
    | .lost _ => ⟨tail.levels, level :: tail.accepted, tail.errors + 1⟩

/-- What rests once these levels have been sent for cancelling; one without an order id is not. -/
def cancelAllTracked (cancels : String → Option PortError) (levels book : List (GridLevel P)) :
    List (GridLevel P) :=
  let ids := (levels.map GridLevel.orderId).filter (· ≠ "")
  book.filter fun order => ¬ (order.orderId ∈ ids ∧ cancels order.orderId = none)

/-- What becomes of the ladder in a cycle: the levels that are dropped from it and cancelled, those
that are kept, and the placements. -/
structure Changes (P : Type) where
  stale : List (GridLevel P)
  kept : List (GridLevel P)
  placements : Placements P

/-- A fresh ladder, or the one that there is with every level whose price is not planned any more
replaced. -/
def World.changes (world : World P) (poll : Poll P) (mid : P) (buyPrices sellPrices : List P) : Changes P :=
  if world.levels = [] then
    ⟨[], [], placeOrders poll.creates 0
      (buyPrices.map (fun price => (price, true)) ++ sellPrices.map fun price => (price, false))⟩
  else
    let livePrices := world.levels.map GridLevel.price
    let desired := (buyPrices ++ sellPrices).dedup
    let lacking := (poll.iterate desired).filter (· ∉ livePrices)
    ⟨world.levels.filter (·.price ∉ desired), world.levels.filter (·.price ∈ desired),
      placeOrders poll.creates 0 (lacking.map fun price => (price, decide (price < mid)))⟩

/-- The ladder and the book after the changes. -/
def World.update (world : World P) (poll : Poll P) (changes : Changes P) : World P :=
  let updated := changes.kept ++ changes.placements.levels
  let book := cancelAllTracked poll.cancels changes.stale world.book ++ changes.placements.accepted
  if maxConsecutiveErrors ≤ changes.placements.errors then
    { world with levels := [], book := (cancelAllTracked poll.cancels updated book).filter (!poll.fills ·) }
  else { world with levels := updated, book := book.filter (!poll.fills ·) }

variable [Neg P] (arith : Arithmetic P)

/-- The prices that are planned for the two sides; `none` is a panic. -/
def World.prices (config : SkewedGridConfig P) (world : World P) (mid : P) : Option (List P × List P) := do
  let sigma := world.volEma.value.getD config.sigma
  let quoted ← reservationPrice arith mid world.inventory config.gamma sigma config.timeHorizon
  let reservation := quoted.getD mid
  let buyPrices ← planSkewedGrid arith reservation mid config.gridTick config.numLevels true
  let sellPrices ← planSkewedGrid arith reservation mid config.gridTick config.numLevels false
  return (buyPrices, sellPrices)

/-- `SkewedGrid::update_inventory`, which a cycle that seeds does not come to. -/
def World.updateInventory (world : World P) (seeds : Bool) : World P :=
  if seeds then world
  else
    -- A product with 0.95 does not overflow.
    let decayed := (arith.div (arith.ofNat 19) (arith.ofNat 20)).bind (arith.mul world.inventory)
    { world with inventory := decayed.getD world.inventory }

/-- The mid of a cycle, and the world with the volatility measured. -/
def World.measure (world : World P) (poll : Poll P) : Option (P × World P) := do
  let mid ← currentMid arith poll.ticker
  let measured ← world.updateVolatility arith mid
  return (mid, measured)

/-- What a cycle comes to, and the world in which it plans; `none` is a cycle that fails. -/
def World.cycle (config : SkewedGridConfig P) (world : World P) (poll : Poll P) :
    Option (World P × Changes P) := do
  let (mid, measured) ← world.measure arith poll
  let (buyPrices, sellPrices) ← measured.prices arith config mid
  return (measured, measured.changes poll mid buyPrices sellPrices)

/-- `SkewedGrid::rebalance`. -/
def World.rebalance (config : SkewedGridConfig P) (world : World P) (poll : Poll P) : World P :=
  match world.cycle arith config poll with
  | none => ((world.measure arith poll).map Prod.snd).getD world
  | some (measured, changes) => (measured.update poll changes).updateInventory arith (world.levels = [])

end Rebalance

section Runs

variable {P : Type} [LinearOrder P] [Neg P] (arith : Arithmetic P)

/-- A cycle runs, a fill is recorded from outside, or an order is filled or taken off the book. -/
inductive Event (P : Type) where
  | rebalances (poll : Poll P)
  | recordsFill (qty : P) (isBuy : Bool)
  | leaves (index : Nat)

/-- `SkewedGrid::record_fill`, which leaves the inventory as it is where it panics. -/
def World.recordFill (world : World P) (qty : P) (isBuy : Bool) : World P :=
  let inventory := if isBuy then arith.add world.inventory qty else arith.sub world.inventory qty
  { world with inventory := inventory.getD world.inventory }

def World.step (config : SkewedGridConfig P) (world : World P) : Event P → World P
  | .rebalances poll => world.rebalance arith config poll
  | .recordsFill qty isBuy => world.recordFill arith qty isBuy
  | .leaves index => { world with book := world.book.eraseIdx index }

/-- A new strategy. Its average is one of `defaultVolWindow` values. -/
def World.new (volEma : Ema P) : World P := ⟨[], arith.ofNat 0, none, volEma, []⟩

end Runs

end LongTrader.Strategy.SkewedGrid
