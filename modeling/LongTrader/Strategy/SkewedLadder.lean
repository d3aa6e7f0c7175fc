import LongTrader.Strategy.SkewedGrid
import LongTrader.Runs
import Mathlib.Data.List.Nodup
import Mathlib.Data.List.Dedup

/-! What becomes of the ladder of the skewed grid over a run: whether it is what is planned, and
whether the orders that rest are on it. -/

namespace LongTrader.Strategy.SkewedGrid

open Indicators
open SimpleGrid (sideFor)

variable {P : Type}

section Placing

variable {creates : Nat → CreateAnswer} {count : Nat} {orders : List (P × Bool)}

/-- What a level quotes. -/
def GridLevel.quote (level : GridLevel P) : P × OrderSide := (level.price, level.side)

/-- The quote of an order. -/
def quoteOf (order : P × Bool) : P × OrderSide := (order.1, if order.2 then .buy else .sell)

theorem placeOrders_accepted_sublist :
    ((placeOrders creates count orders).accepted.map GridLevel.quote).Sublist (orders.map quoteOf) := by
  induction orders generalizing count with
  | nil => exact List.Sublist.refl _
  | cons order rest ih =>
    obtain ⟨price, isBuy⟩ := order
    rw [placeOrders]
    cases creates count with
    | accepted orderId => exact List.cons_sublist_cons.mpr ih
    | refused error => exact List.Sublist.cons _ ih
    | lost error => exact List.cons_sublist_cons.mpr ih

/-- A level stands for an order that the venue has accepted. -/
theorem placeOrders_levels_sublist :
    (placeOrders creates count orders).levels.Sublist (placeOrders creates count orders).accepted := by
  induction orders generalizing count with
  | nil => exact List.Sublist.refl _
  | cons order rest ih =>
    obtain ⟨price, isBuy⟩ := order
    rw [placeOrders]
    cases creates count with
    | accepted orderId => exact List.cons_sublist_cons.mpr ih
    | refused error => exact ih
    | lost error => exact List.Sublist.cons _ ih

/-- An order with an id has a level. -/
theorem placeOrders_named {order : GridLevel P} (named : order.orderId ≠ "")
    (accepted : order ∈ (placeOrders creates count orders).accepted) :
    order ∈ (placeOrders creates count orders).levels := by
  induction orders generalizing count with
  | nil => exact accepted
  | cons first rest ih =>
    obtain ⟨price, isBuy⟩ := first
    rw [placeOrders] at accepted ⊢
    cases answer : creates count with
    | accepted orderId =>
      rw [answer] at accepted
      rcases List.mem_cons.mp accepted with rfl | later
      · exact List.mem_cons_self ..
      · exact List.mem_cons_of_mem _ (ih later)
    | refused error =>
      rw [answer] at accepted
      exact ih accepted
    | lost error =>
      rw [answer] at accepted
      rcases List.mem_cons.mp accepted with rfl | later
      · exact absurd rfl named
      · exact ih later

theorem placeOrders_accepting (accepts : ∀ n, ∃ orderId, creates n = .accepted orderId) :
    (placeOrders creates count orders).levels.map GridLevel.quote = orders.map quoteOf ∧
      (placeOrders creates count orders).errors = 0 := by
  induction orders generalizing count with
  | nil => exact ⟨rfl, rfl⟩
  | cons order rest ih =>
    obtain ⟨price, isBuy⟩ := order
    obtain ⟨orderId, accepted⟩ := accepts count
    obtain ⟨quotes, errors⟩ := @ih (count + 1)
    rw [placeOrders]
    simp only [accepted, List.map_cons, quotes, errors]
    exact ⟨rfl, trivial⟩

end Placing

variable [LinearOrder P]

section Plans

/-- The prices that a cycle plans for the two sides around a mid: buys below it, and sells above it. -/
structure Plan (mid : P) where
  buyPrices : List P
  sellPrices : List P
  below : ∀ price ∈ buyPrices, price < mid
  above : ∀ price ∈ sellPrices, mid < price

variable {mid : P}

/-- The prices that are planned. -/
def Plan.desired (plan : Plan mid) : List P := plan.buyPrices ++ plan.sellPrices

/-- The quotes that are planned. -/
def Plan.quotes (plan : Plan mid) : List (P × OrderSide) :=
  plan.buyPrices.map (fun price => (price, .buy)) ++ plan.sellPrices.map fun price => (price, .sell)

/-- A price is planned for the side of the mid on which it lies. -/
theorem Plan.quotes_eq (plan : Plan mid) :
    plan.quotes = plan.desired.map fun price => (price, sideFor price mid) := by
  rw [Plan.quotes, Plan.desired, List.map_append]
  congr 1
  · refine List.map_congr_left fun price planned => ?_
    rw [sideFor, if_pos (plan.below price planned)]
  · refine List.map_congr_left fun price planned => ?_
    rw [sideFor, if_neg (plan.above price planned).not_gt]

theorem Plan.mem_quotes {plan : Plan mid} {price : P} {side : OrderSide} :
    (price, side) ∈ plan.quotes ↔ price ∈ plan.desired ∧ side = sideFor price mid := by
  simp [Plan.quotes_eq, eq_comm]

theorem Plan.quotes_prices (plan : Plan mid) : plan.quotes.map Prod.fst = plan.desired := by
  simp [Plan.quotes_eq, Function.comp_def]

end Plans

section Changes

variable {world : World P} {poll : Poll P} {mid : P} {plan : Plan mid}

/-- What a cycle does to the ladder: it drops the levels whose prices are not planned, keeps the
others, and places orders at the planned prices that no level has, or at all of them. -/
structure Changes.Plans (world : World P) (poll : Poll P) (plan : Plan mid) (changes : Changes P)
    (orders : List (P × Bool)) : Prop where
  stale : changes.stale = world.levels.filter (·.price ∉ plan.desired)
  kept : changes.kept = world.levels.filter (·.price ∈ plan.desired)
  placements : changes.placements = placeOrders poll.creates 0 orders
  quotes : ∀ quote, quote ∈ orders.map quoteOf ↔
    quote ∈ plan.quotes ∧ quote.1 ∉ world.levels.map GridLevel.price
  seeds : world.levels = [] → orders.map quoteOf = plan.quotes
  distinct : (world.levels = [] → plan.desired.Nodup) → ((orders.map quoteOf).map Prod.fst).Nodup

theorem World.changes_plans (world : World P) (poll : Poll P) (plan : Plan mid) :
    ∃ orders, (world.changes poll mid plan.buyPrices plan.sellPrices).Plans world poll plan orders := by
  by_cases fresh : world.levels = []
  · rw [World.changes, if_pos fresh]
    have all : (plan.buyPrices.map (fun price => (price, true)) ++
        plan.sellPrices.map fun price => (price, false)).map quoteOf = plan.quotes := by
      rw [List.map_append, List.map_map, List.map_map]
      rfl
    refine ⟨_, by rw [fresh]; rfl, by rw [fresh]; rfl, rfl, fun quote => ?_, fun _ => all, fun once => ?_⟩
    · rw [all, fresh]
      simp
    · rw [all, plan.quotes_prices]
      exact once fresh
  · have listed : ∀ price, price ∈ (plan.buyPrices ++ plan.sellPrices).dedup ↔ price ∈ plan.desired :=
      fun price => List.mem_dedup
    have quotes : (quoteOf ∘ fun price => (price, decide (price < mid))) =
        fun price => (price, sideFor price mid) := by
      funext price
      simp [quoteOf, sideFor]
    rw [World.changes, if_neg fresh]
    simp only [listed]
    refine ⟨_, rfl, rfl, rfl, fun quote => ?_, fun seeds => absurd seeds fresh, fun _ => ?_⟩
    · obtain ⟨price, side⟩ := quote
      rw [List.map_map, quotes, Plan.mem_quotes]
      simp only [List.mem_map, List.mem_filter, (poll.iterated _).mem_iff, listed, decide_eq_true_eq,
        Prod.mk.injEq]
      constructor
      · rintro ⟨_, ⟨desired, lacking⟩, rfl, rfl⟩
        exact ⟨⟨desired, rfl⟩, lacking⟩
      · rintro ⟨⟨desired, rfl⟩, lacking⟩
        exact ⟨price, ⟨desired, lacking⟩, rfl, rfl⟩
    · have prices : ∀ list : List P,
          ((list.map fun price => (price, decide (price < mid))).map quoteOf).map Prod.fst = list := by
        intro list
        simp [quoteOf, Function.comp_def]
      rw [prices]
      exact ((poll.iterated _).nodup_iff.mpr (List.nodup_dedup _)).filter _

/-- No two levels have the same price. -/
def World.Distinct (world : World P) : Prop := (world.levels.map GridLevel.price).Nodup

theorem Changes.Plans.updated_distinct {changes : Changes P} {orders : List (P × Bool)}
    (plans : changes.Plans world poll plan orders) (distinct : world.Distinct)
    (once : world.levels = [] → plan.desired.Nodup) :
    ((changes.kept ++ changes.placements.levels).map GridLevel.price).Nodup := by
  have placed : (changes.placements.levels.map GridLevel.quote).Sublist (orders.map quoteOf) := by
    rw [plans.placements]
    exact (placeOrders_levels_sublist.map _).trans placeOrders_accepted_sublist
  have prices : (changes.placements.levels.map GridLevel.quote).map Prod.fst =
      changes.placements.levels.map GridLevel.price := by
    rw [List.map_map]
    rfl
  rw [List.map_append, List.nodup_append]
  refine ⟨?_, ?_, ?_⟩
  · rw [plans.kept]
    exact List.Nodup.sublist (List.filter_sublist.map _) distinct
  · rw [← prices]
    exact (plans.distinct once).sublist (placed.map Prod.fst)
  · rintro price kept _ fresh rfl
    rw [← prices] at fresh
    obtain ⟨quote, member, rfl⟩ := List.mem_map.mp fresh
    have lacking := ((plans.quotes quote).mp (placed.subset member)).2
    rw [plans.kept] at kept
    exact lacking ((List.filter_sublist.map _).subset kept)

omit [LinearOrder P] in
theorem World.update_levels (world : World P) (poll : Poll P) (changes : Changes P) :
    (world.update poll changes).levels =
      if maxConsecutiveErrors ≤ changes.placements.errors then []
      else changes.kept ++ changes.placements.levels := by
  unfold update
  split <;> rfl

/-- The ladder has each quote of the plan once, and no other. -/
def IsPlan (planned : List (P × OrderSide)) (levels : List (GridLevel P)) : Prop :=
  (levels.map GridLevel.quote).Nodup ∧ ∀ quote, quote ∈ levels.map GridLevel.quote ↔ quote ∈ planned

/-- When every placement is accepted, a cycle leaves its plan just if a fresh ladder has no price twice
and each level that is kept is planned for the side that it has. -/
theorem Changes.Plans.isPlan_iff {changes : Changes P} {orders : List (P × Bool)}
    (plans : changes.Plans world poll plan orders) (distinct : world.Distinct)
    (accepts : ∀ n, ∃ orderId, poll.creates n = .accepted orderId) :
    IsPlan plan.quotes (world.update poll changes).levels ↔
      (world.levels = [] → plan.desired.Nodup) ∧
        ∀ level ∈ world.levels, level.price ∈ plan.desired → level.quote ∈ plan.quotes := by
  obtain ⟨accepted, quiet⟩ := @placeOrders_accepting P poll.creates 0 orders accepts
  rw [← plans.placements] at accepted quiet
  rw [World.update_levels, quiet, if_neg (by decide)]
  constructor
  · rintro ⟨once, same⟩
    constructor
    · intro seeds
      rw [plans.kept, seeds, List.filter_nil, List.nil_append, accepted, plans.seeds seeds,
        plan.quotes_eq] at once
      exact once.of_map _
    · intro level member again
      refine (same level.quote).mp (List.mem_map_of_mem (List.mem_append_left _ ?_))
      rw [plans.kept]
      exact List.mem_filter.mpr ⟨member, decide_eq_true again⟩
  · rintro ⟨once, keeps⟩
    have apart : ((changes.kept ++ changes.placements.levels).map GridLevel.quote).Nodup := by
      refine List.Nodup.of_map Prod.fst ?_
      rw [List.map_map]
      exact plans.updated_distinct distinct once
    refine ⟨apart, fun quote => ?_⟩
    rw [List.map_append, List.mem_append, accepted, plans.quotes, plans.kept]
    constructor
    · rintro (kept | ⟨planned, -⟩)
      · obtain ⟨level, member, rfl⟩ := List.mem_map.mp kept
        obtain ⟨member, again⟩ := List.mem_filter.mp member
        exact keeps level member (of_decide_eq_true again)
      · exact planned
    · intro planned
      refine or_iff_not_imp_right.mpr fun stands => ?_
      have live : quote.1 ∈ world.levels.map GridLevel.price := by
        by_contra lacking
        exact stands ⟨planned, lacking⟩
      obtain ⟨level, member, price⟩ := List.mem_map.mp live
      obtain ⟨again, side⟩ := Plan.mem_quotes.mp planned
      have desired : level.price ∈ plan.desired := price ▸ again
      obtain ⟨-, own⟩ := Plan.mem_quotes.mp (keeps level member desired)
      have same : level.quote = quote := Prod.ext price (own.trans (by rw [side, price]))
      exact same ▸ List.mem_map_of_mem (List.mem_filter.mpr ⟨member, decide_eq_true desired⟩)

end Changes

section Matching

variable {arith : Arithmetic P} {world measured : World P} {poll : Poll P} {mid : P}

omit [LinearOrder P] in
theorem World.updateVolatility_frame (measures : world.updateVolatility arith mid = some measured) :
    measured.levels = world.levels ∧ measured.book = world.book := by
  unfold updateVolatility at measures
  split at measures
  · cases measures
    exact ⟨rfl, rfl⟩
  · obtain ⟨change, -, pushed⟩ := Option.bind_eq_some_iff.mp measures
    obtain ⟨volEma, -, same⟩ := Option.bind_eq_some_iff.mp pushed
    obtain rfl := Option.some.inj same
    exact ⟨rfl, rfl⟩

theorem World.measure_frame (measures : world.measure arith poll = some (mid, measured)) :
    measured.levels = world.levels ∧ measured.book = world.book := by
  obtain ⟨_, -, updated⟩ := Option.bind_eq_some_iff.mp measures
  obtain ⟨_, volatility, same⟩ := Option.bind_eq_some_iff.mp updated
  obtain ⟨rfl, rfl⟩ := Prod.mk.inj (Option.some.inj same)
  exact updateVolatility_frame volatility

omit [LinearOrder P] in
theorem World.updateInventory_frame (world : World P) (seeds : Bool) :
    (world.updateInventory arith seeds).levels = world.levels ∧
      (world.updateInventory arith seeds).book = world.book := by
  cases seeds <;> exact ⟨rfl, rfl⟩

variable [Neg P] {config : SkewedGridConfig P}

/-- The quotes that a cycle plans; `none` is a cycle that fails. -/
def World.quoted (arith : Arithmetic P) (config : SkewedGridConfig P) (world : World P) (poll : Poll P) :
    Option (List (P × OrderSide)) := do
  let (mid, measured) ← world.measure arith poll
  let (buyPrices, sellPrices) ← measured.prices arith config mid
  return buyPrices.map (fun price => (price, .buy)) ++ sellPrices.map fun price => (price, .sell)

/-- Every placement of a cycle is accepted. -/
def Event.Accepting : Event P → Prop
  | .rebalances poll => ∀ n, ∃ orderId, poll.creates n = .accepted orderId
  | .recordsFill .. | .leaves _ => True

/-- A cycle that does not fail leaves the ladder that it plans. -/
def World.MatchesPlan (arith : Arithmetic P) (config : SkewedGridConfig P) (world : World P) :
    Event P → Prop
  | .rebalances poll => ∀ planned ∈ world.quoted arith config poll,
      IsPlan planned (world.rebalance arith config poll).levels
  | .recordsFill .. | .leaves _ => True

/-- A fresh ladder is planned with no price twice, and a level whose price is planned again is planned for
its side again. -/
def World.KeepsSides (arith : Arithmetic P) (config : SkewedGridConfig P) (world : World P) :
    Event P → Prop
  | .rebalances poll => ∀ planned ∈ world.quoted arith config poll,
      (world.levels = [] → (planned.map Prod.fst).Nodup) ∧
        ∀ level ∈ world.levels, level.price ∈ planned.map Prod.fst → level.quote ∈ planned
  | .recordsFill .. | .leaves _ => True

instance (arith : Arithmetic P) (config : SkewedGridConfig P) (world : World P) :
    (event : Event P) → Decidable (world.KeepsSides arith config event)
  | .rebalances poll => inferInstanceAs (Decidable (∀ planned ∈ world.quoted arith config poll,
      (world.levels = [] → (planned.map Prod.fst).Nodup) ∧
        ∀ level ∈ world.levels, level.price ∈ planned.map Prod.fst → level.quote ∈ planned))
  | .recordsFill .. | .leaves _ => isTrue trivial

/-- The prices of a cycle are on their sides of the mid. -/
theorem World.prices_plan {buyPrices sellPrices : List P}
    (prices : world.prices arith config mid = some (buyPrices, sellPrices)) :
    ∃ plan : Plan mid, plan.buyPrices = buyPrices ∧ plan.sellPrices = sellPrices := by
  obtain ⟨_, -, prices⟩ := Option.bind_eq_some_iff.mp prices
  obtain ⟨_, buys, prices⟩ := Option.bind_eq_some_iff.mp prices
  obtain ⟨_, sells, same⟩ := Option.bind_eq_some_iff.mp prices
  obtain ⟨rfl, rfl⟩ := Prod.mk.inj (Option.some.inj same)
  exact ⟨⟨_, _, planSkewedGrid_inside buys, planSkewedGrid_inside sells⟩, rfl, rfl⟩

/-- A cycle fails, or it plans around a mid and changes the ladder. -/
theorem World.rebalance_cases (arith : Arithmetic P) (config : SkewedGridConfig P) (world : World P)
    (poll : Poll P) :
    (world.quoted arith config poll = none ∧ world.cycle arith config poll = none ∧
      (world.rebalance arith config poll).levels = world.levels ∧
      (world.rebalance arith config poll).book = world.book) ∨
    ∃ mid measured, ∃ plan : Plan mid, measured.levels = world.levels ∧ measured.book = world.book ∧
      world.quoted arith config poll = some plan.quotes ∧
      world.cycle arith config poll =
        some (measured, measured.changes poll mid plan.buyPrices plan.sellPrices) ∧
      (world.rebalance arith config poll).levels =
        (measured.update poll (measured.changes poll mid plan.buyPrices plan.sellPrices)).levels ∧
      (world.rebalance arith config poll).book =
        (measured.update poll (measured.changes poll mid plan.buyPrices plan.sellPrices)).book := by
  cases measures : world.measure arith poll with
  | none => simp [quoted, rebalance, cycle, measures]
  | some found =>
    obtain ⟨mid, measured⟩ := found
    obtain ⟨levels, book⟩ := measure_frame measures
    cases prices : measured.prices arith config mid with
    | none => simp [quoted, rebalance, cycle, measures, prices, levels, book]
    | some both =>
      obtain ⟨buyPrices, sellPrices⟩ := both
      obtain ⟨plan, rfl, rfl⟩ := prices_plan prices
      have cycled : world.cycle arith config poll =
          some (measured, measured.changes poll mid plan.buyPrices plan.sellPrices) := by
        simp [cycle, measures, prices]
      refine .inr ⟨mid, measured, plan, levels, book, by simp [quoted, measures, prices, Plan.quotes],
        cycled, ?_⟩
      rw [rebalance, cycled]
      exact updateInventory_frame _ _

theorem World.Distinct.step (distinct : world.Distinct) {event : Event P}
    (keeps : world.KeepsSides arith config event) : (world.step arith config event).Distinct := by
  cases event with
  | recordsFill qty isBuy => exact distinct
  | leaves index => exact distinct
  | rebalances poll =>
    rcases world.rebalance_cases arith config poll with
      ⟨-, -, same, -⟩ | ⟨mid, measured, plan, levels, -, quoted, -, after, -⟩
    · simp only [World.step, World.Distinct, same]
      exact distinct
    · obtain ⟨orders, plans⟩ := measured.changes_plans poll plan
      have once : measured.levels = [] → plan.desired.Nodup := by
        rw [levels, ← plan.quotes_prices]
        exact (keeps _ quoted).1
      have whole := plans.updated_distinct (show measured.Distinct by rwa [World.Distinct, levels]) once
      simp only [World.step, World.Distinct, after, World.update_levels]
      split
      · exact List.nodup_nil
      · exact whole

theorem World.matchesPlan_iff {event : Event P} (distinct : world.Distinct) (accepts : event.Accepting) :
    world.MatchesPlan arith config event ↔ world.KeepsSides arith config event := by
  cases event with
  | recordsFill qty isBuy => exact Iff.rfl
  | leaves index => exact Iff.rfl
  | rebalances poll =>
    rcases world.rebalance_cases arith config poll with
      ⟨fails, -, -⟩ | ⟨mid, measured, plan, levels, -, quoted, -, after, -⟩
    · simp [MatchesPlan, KeepsSides, fails]
    · obtain ⟨orders, plans⟩ := measured.changes_plans poll plan
      have kept := plans.isPlan_iff (show measured.Distinct by rwa [Distinct, levels]) accepts
      simp only [MatchesPlan, KeepsSides, quoted, Option.mem_def, Option.some.injEq, forall_eq', after, kept,
        levels, plan.quotes_prices]

/-- When every placement is accepted, each cycle of a run leaves the ladder that it plans just if each
cycle finds the levels whose prices it plans again on the sides for which it plans them, and plans no price
twice for a fresh ladder. -/
theorem ladder_is_plan_iff (arith : Arithmetic P) (config : SkewedGridConfig P) (volEma : Ema P)
    (events : List (Event P)) (accepts : ∀ event ∈ events, event.Accepting) :
    Runs.Along (World.step arith config) (World.MatchesPlan arith config) (.new arith volEma) events ↔
      Runs.Along (World.step arith config) (World.KeepsSides arith config) (.new arith volEma) events := by
  have start : World.Distinct (.new arith volEma) := List.nodup_nil
  refine @Runs.along_congr_of_mem _ _ _ World.Distinct _ _ events ?_ ?_ _ start
  · exact fun world event member distinct => World.matchesPlan_iff distinct (accepts event member)
  · exact fun world event _ distinct keeps => distinct.step keeps

end Matching

/-- Two levels on each side, a tick of one apart. -/
def grid : SkewedGridConfig ℚ := ⟨1, 2, 0, 1, 1⟩

/-- The average of a new strategy. -/
def average : Ema ℚ := ⟨defaultVolWindow, 952380952380952380952380952 / 10 ^ 28, none, [], 0⟩

example : (Ema.new Arithmetic.rounded defaultVolWindow).map Ema.k = some average.k := by decide +kernel

/-- A cycle at a mid, with the ids of the orders that it places. -/
def pollAt (mid : ℚ) (ids : Nat → String) : Poll ℚ where
  ticker := .ok ⟨some (.ok mid), none, none, none⟩
  iterate := id
  iterated _ := .refl _
  creates n := .accepted (ids n)
  cancels _ := none
  fills _ := false

/-- The ids of the orders of the first cycle, and those of the second. -/
def firstIds (n : Nat) : String := toString n

def secondIds (n : Nat) : String := toString (n + 4)

/-- The grid after its first cycle, at a mid of 100. -/
def seeded : World ℚ :=
  (World.new Arithmetic.rounded average).rebalance Arithmetic.rounded grid (pollAt 100 firstIds)

/-- When the mid rises from 100 to 102, the sell level at 101 stays where a buy level is planned. -/
theorem wrong_side_kept :
    seeded.levels.map GridLevel.quote = [(99, .buy), (98, .buy), (101, .sell), (102, .sell)] ∧
    seeded.quoted Arithmetic.rounded grid (pollAt 102 secondIds) =
      some [(101, .buy), (100, .buy), (103, .sell), (104, .sell)] ∧
    (seeded.rebalance Arithmetic.rounded grid (pollAt 102 secondIds)).levels.map GridLevel.quote =
      [(101, .sell), (100, .buy), (103, .sell), (104, .sell)] ∧
    ¬ IsPlan [(101, .buy), (100, .buy), (103, .sell), (104, .sell)]
      (seeded.rebalance Arithmetic.rounded grid (pollAt 102 secondIds)).levels := by
  refine ⟨by decide +kernel, by decide +kernel, by decide +kernel, fun plan => ?_⟩
  have kept := (plan.2 (101, .sell)).mp (by decide +kernel)
  revert kept
  decide +kernel

theorem ladder_is_plan_rising :
    Runs.Along (World.step Arithmetic.rounded grid) (World.MatchesPlan Arithmetic.rounded grid)
      (.new Arithmetic.rounded average)
      [.rebalances (pollAt 100 firstIds), .rebalances (pollAt 101 secondIds)] := by
  refine (ladder_is_plan_iff Arithmetic.rounded grid average _ ?_).mpr (by decide +kernel)
  intro event member
  simp only [List.mem_cons, List.not_mem_nil, or_false] at member
  rcases member with rfl | rfl <;> exact fun n => ⟨_, rfl⟩

section Orphans

variable {world : World P} {poll : Poll P} {mid : P} {plan : Plan mid}

/-- Every order of the grid that rests is on the ladder with an order id to cancel it by. -/
def World.Tracked (world : World P) : Prop :=
  ∀ order ∈ world.book, order ∈ world.levels ∧ order.orderId ≠ ""

instance (world : World P) : Decidable world.Tracked :=
  inferInstanceAs (Decidable (∀ order ∈ world.book, order ∈ world.levels ∧ order.orderId ≠ ""))

/-- The levels that a cycle takes off the ladder. -/
def Changes.dropped (changes : Changes P) : List (GridLevel P) :=
  if maxConsecutiveErrors ≤ changes.placements.errors then
    changes.stale ++ (changes.kept ++ changes.placements.levels)
  else changes.stale

omit [LinearOrder P] in
theorem mem_cancelAllTracked {cancels : String → Option PortError} {levels book : List (GridLevel P)}
    {order : GridLevel P} : order ∈ cancelAllTracked cancels levels book ↔ order ∈ book ∧
      ((∃ level ∈ levels, level.orderId = order.orderId) → order.orderId ≠ "" →
        cancels order.orderId ≠ none) := by
  simp only [cancelAllTracked, List.mem_filter, decide_eq_true_eq, List.mem_map, not_and]
  refine and_congr_right fun _ => ?_
  constructor
  · exact fun kept tracked named => kept ⟨tracked, named⟩
  · exact fun kept both => kept both.1 both.2

omit [LinearOrder P] in
theorem World.mem_update_book {changes : Changes P} {order : GridLevel P} :
    order ∈ (world.update poll changes).book ↔ poll.fills order = false ∧
      (maxConsecutiveErrors ≤ changes.placements.errors →
        (∃ level ∈ changes.kept ++ changes.placements.levels, level.orderId = order.orderId) →
          order.orderId ≠ "" → poll.cancels order.orderId ≠ none) ∧
      (order ∈ cancelAllTracked poll.cancels changes.stale world.book ∨
        order ∈ changes.placements.accepted) := by
  unfold update
  split
  · rename_i trips
    simp [mem_cancelAllTracked, trips]
    tauto
  · rename_i quiet
    simp [quiet]
    tauto

theorem Changes.Plans.placed_desired {changes : Changes P} {orders : List (P × Bool)}
    (plans : changes.Plans world poll plan orders) {order : GridLevel P}
    (fresh : order ∈ changes.placements.levels) : order.price ∈ plan.desired := by
  rw [plans.placements] at fresh
  have quoted : order.quote ∈ orders.map quoteOf :=
    placeOrders_accepted_sublist.subset (List.mem_map_of_mem (placeOrders_levels_sublist.subset fresh))
  exact (Plan.mem_quotes.mp ((plans.quotes _).mp quoted).1).1

omit [LinearOrder P] in
/-- An order that does not fill rests on unless its cancel is accepted. -/
theorem World.uncancelled_rests {changes : Changes P} {order : GridLevel P}
    (rests : order ∈ world.book ++ changes.placements.accepted) (unfilled : poll.fills order = false)
    (uncancelled : order.orderId ≠ "" → poll.cancels order.orderId ≠ none) :
    order ∈ (world.update poll changes).book := by
  refine World.mem_update_book.mpr ⟨unfilled, fun _ _ => uncancelled, ?_⟩
  rcases List.mem_append.mp rests with old | fresh
  · exact .inl (mem_cancelAllTracked.mpr ⟨old, fun _ => uncancelled⟩)
  · exact .inr fresh

omit [LinearOrder P] in
theorem Changes.stale_dropped {changes : Changes P} {level : GridLevel P} (stale : level ∈ changes.stale) :
    level ∈ changes.dropped := by
  unfold Changes.dropped
  split
  · exact List.mem_append_left _ stale
  · exact stale

/-- A level of the ladder is kept when its price is planned, and is stale otherwise. -/
theorem Changes.Plans.kept_or_stale {changes : Changes P} {orders : List (P × Bool)}
    (plans : changes.Plans world poll plan orders) {level : GridLevel P} (ladder : level ∈ world.levels) :
    level ∈ changes.kept ∨ level ∈ changes.stale := by
  rw [plans.kept, plans.stale]
  by_cases planned : level.price ∈ plan.desired
  · exact .inl (List.mem_filter.mpr ⟨ladder, decide_eq_true planned⟩)
  · exact .inr (List.mem_filter.mpr ⟨ladder, decide_eq_true planned⟩)

/-- What is taken off the ladder is not on it. -/
theorem Changes.Plans.dropped_gone {changes : Changes P} {orders : List (P × Bool)}
    (plans : changes.Plans world poll plan orders) {level : GridLevel P} (dropped : level ∈ changes.dropped) :
    level ∉ (world.update poll changes).levels := by
  intro ladder
  rw [World.update_levels] at ladder
  by_cases trips : maxConsecutiveErrors ≤ changes.placements.errors
  · rw [if_pos trips] at ladder
    cases ladder
  · rw [if_neg trips] at ladder
    rw [Changes.dropped, if_neg trips, plans.stale] at dropped
    have unplanned := of_decide_eq_true (List.mem_filter.mp dropped).2
    rcases List.mem_append.mp ladder with kept | fresh
    · rw [plans.kept] at kept
      exact unplanned (of_decide_eq_true (List.mem_filter.mp kept).2)
    · exact unplanned (plans.placed_desired fresh)

/-- A cycle leaves every order that rests on the ladder just if it knows the orders that are accepted and
cancels all that it takes off the ladder. -/
theorem Changes.Plans.tracked_iff {changes : Changes P} {orders : List (P × Bool)}
    (plans : changes.Plans world poll plan orders) (tracked : world.Tracked) :
    (world.update poll changes).Tracked ↔
      (∀ order ∈ changes.placements.accepted, poll.fills order = false → order.orderId ≠ "") ∧
        ∀ level ∈ changes.dropped, level ∈ world.book ++ changes.placements.accepted →
          poll.fills level = false → poll.cancels level.orderId = none := by
  constructor
  · intro after
    constructor
    · intro order fresh unfilled nameless
      have rests := World.uncancelled_rests (List.mem_append_right world.book fresh) unfilled
        fun named => absurd nameless named
      exact (after order rests).2 nameless
    · intro level dropped rests unfilled
      by_contra uncancelled
      have rests := World.uncancelled_rests rests unfilled fun _ => uncancelled
      exact plans.dropped_gone dropped (after level rests).1
  · rintro ⟨named, cancelled⟩ order rests
    obtain ⟨unfilled, killed, stands⟩ := World.mem_update_book.mp rests
    have rested : order ∈ world.book ++ changes.placements.accepted := List.mem_append.mpr
      (stands.imp (fun old => (mem_cancelAllTracked.mp old).1) id)
    have own : order.orderId ≠ "" := by
      rcases List.mem_append.mp rested with old | fresh
      · exact (tracked order old).2
      · exact named order fresh unfilled
    have updated : order ∈ changes.kept ++ changes.placements.levels := by
      rcases stands with old | fresh
      · obtain ⟨old, uncancelled⟩ := mem_cancelAllTracked.mp old
        rcases plans.kept_or_stale (tracked order old).1 with kept | stale
        · exact List.mem_append_left _ kept
        · have accepted := cancelled order (Changes.stale_dropped stale) rested unfilled
          exact absurd accepted (uncancelled ⟨order, stale, rfl⟩ own)
      · refine List.mem_append_right _ ?_
        rw [plans.placements] at fresh ⊢
        exact placeOrders_named own fresh
    rw [World.update_levels]
    by_cases trips : maxConsecutiveErrors ≤ changes.placements.errors
    · have dropped : order ∈ changes.dropped := by
        rw [Changes.dropped, if_pos trips]
        exact List.mem_append_right _ updated
      exact absurd (cancelled order dropped rested unfilled) (killed trips ⟨order, updated, rfl⟩ own)
    · rw [if_neg trips]
      exact ⟨updated, own⟩

variable [Neg P] {arith : Arithmetic P} {config : SkewedGridConfig P}

/-- Every order that is accepted in a cycle has an id that the grid knows, and the cancel of every level
that the cycle takes off the ladder is accepted, unless its order does not rest any more. -/
def World.CancelsDropped (arith : Arithmetic P) (config : SkewedGridConfig P) (world : World P) :
    Event P → Prop
  | .rebalances poll => ∀ measured changes, world.cycle arith config poll = some (measured, changes) →
      (∀ order ∈ changes.placements.accepted, poll.fills order = false → order.orderId ≠ "") ∧
        ∀ level ∈ changes.dropped, level ∈ world.book ++ changes.placements.accepted →
          poll.fills level = false → poll.cancels level.orderId = none
  | .recordsFill .. | .leaves _ => True

theorem World.Tracked.step_iff {event : Event P} (tracked : world.Tracked) :
    (world.step arith config event).Tracked ↔ world.CancelsDropped arith config event := by
  cases event with
  | recordsFill qty isBuy => exact iff_of_true tracked trivial
  | leaves index =>
    exact iff_of_true (fun order rests => tracked order ((List.eraseIdx_sublist ..).subset rests)) trivial
  | rebalances poll =>
    rcases world.rebalance_cases arith config poll with
      ⟨-, fails, levels, book⟩ | ⟨mid, measured, plan, levels, book, -, cycled, after, rests⟩
    · simp only [World.step, World.Tracked, levels, book, CancelsDropped, fails]
      refine iff_of_true tracked ?_
      rintro measured changes ⟨⟩
    · obtain ⟨orders, plans⟩ := measured.changes_plans poll plan
      have measured_tracked : measured.Tracked := by
        unfold Tracked
        rw [levels, book]
        exact tracked
      have orphans := plans.tracked_iff measured_tracked
      unfold Tracked at orphans ⊢
      simp only [World.step, after, rests, orphans, CancelsDropped, cycled, book, Option.some.injEq,
        Prod.mk.injEq]
      constructor
      · rintro cancels _ _ ⟨rfl, rfl⟩
        exact cancels
      · exact fun cancels => cancels _ _ ⟨rfl, rfl⟩

/-- After every event of a run each order of the grid that rests can be cancelled by its level just if
in each cycle of it the grid gets the ids of all the orders that are accepted, and the cancels of all the
levels that are taken off the ladder are accepted. -/
theorem never_orphans_iff (arith : Arithmetic P) (config : SkewedGridConfig P) (volEma : Ema P)
    (events : List (Event P)) :
    Runs.Along (World.step arith config) (fun world event => (world.step arith config event).Tracked)
        (.new arith volEma) events ↔
      Runs.Along (World.step arith config) (World.CancelsDropped arith config) (.new arith volEma) events := by
  have start : World.Tracked (.new arith volEma) := nofun
  refine @Runs.along_congr _ _ _ World.Tracked _ _ ?_ ?_ _ start events
  · exact fun world event tracked => tracked.step_iff
  · exact fun world event tracked cancels => tracked.step_iff.mpr cancels

end Orphans

/-- The second cycle, in which the cancels are refused. -/
def refusing : Poll ℚ := { pollAt 110 secondIds with cancels := fun _ => some (.transport "timed out") }

/-- When the mid moves away and the cancels of the stale levels are refused, their orders rest on, and
the ladder has none of them. -/
theorem refused_cancels_orphan :
    (seeded.rebalance Arithmetic.rounded grid refusing).book.map GridLevel.orderId =
        ["0", "1", "2", "3", "4", "5", "6", "7"] ∧
      (seeded.rebalance Arithmetic.rounded grid refusing).levels.map GridLevel.orderId = ["4", "5", "6", "7"] ∧
      ¬ (seeded.rebalance Arithmetic.rounded grid refusing).Tracked := by
  decide +kernel

end LongTrader.Strategy.SkewedGrid
