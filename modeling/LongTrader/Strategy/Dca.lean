import LongTrader.Strategy.Order
import LongTrader.Indicators.Ranges
import LongTrader.Indicators.Rounded
import LongTrader.Runs
import Mathlib.Algebra.BigOperators.Group.List.Lemmas
import Mathlib.Data.List.TakeWhile
import Mathlib.Tactic.Linarith

/-! The DCA executor: limit orders at a list of levels, and barriers around the average entry of all
of them. Prices and amounts are decimals of any arithmetic. -/

namespace LongTrader.Strategy.Dca

open Indicators

structure DcaConfig (P : Type) where
  exchangeId : ExchangeId
  symbol : String
  prices : List P
  amountsQuote : List P
  isBuy : Bool
  isMaker : Bool
  stopLoss : P
  takeProfit : P
  trailingActivation : P
  trailingDelta : P

inductive DcaState where
  | active
  | complete
  | stopLoss
  | takeProfit
  | trailingStop
  deriving DecidableEq, Repr

/-- A level of the configured lists. -/
structure Level (P : Type) where
  index : Nat
  price : P
  amount : P
  deriving DecidableEq, Repr

/-- The levels that a tick goes through. The longer list is cut off. -/
def DcaConfig.levels {P : Type} (config : DcaConfig P) : List (Level P) :=
  (config.prices.zip config.amountsQuote).zipIdx.map fun level => ⟨level.2, level.1.1, level.1.2⟩

section Functions

variable {P : Type} [LinearOrder P] (arith : Arithmetic P)

/-- What is bought for an amount at a price, as the average counts it. -/
def baseAt (amount price : P) : Option P :=
  if price = arith.ofNat 0 then some (arith.ofNat 0) else arith.div amount price

/-- `average_entry_price`; the outer `none` is the panic of an operator. -/
def averageEntryPrice (amountsQuote prices : List P) : Option (Option P) :=
  if amountsQuote.length ≠ prices.length ∨ amountsQuote = [] then some none
  else do
    let totalQuote ← total arith amountsQuote
    if totalQuote = arith.ofNat 0 then return none
    else
      let bases ← (amountsQuote.zip prices).mapM fun level => baseAt arith level.1 level.2
      let totalBase ← total arith bases
      if totalBase = arith.ofNat 0 then return none
      else
        let average ← arith.div totalQuote totalBase
        return some average

/-- `dca_pnl_fraction`; the outer `none` is the panic of an operator. -/
def dcaPnlFraction (averageEntry currentPrice : P) (isBuy : Bool) : Option (Option P) :=
  if averageEntry ≤ arith.ofNat 0 ∨ currentPrice ≤ arith.ofNat 0 then some none
  else do
    let gain ← if isBuy then arith.sub currentPrice averageEntry else arith.sub averageEntry currentPrice
    let fraction ← arith.div gain averageEntry
    return some fraction

def levelActivated (levelPrice currentPrice : P) (isBuy : Bool) : Bool :=
  if isBuy then currentPrice ≤ levelPrice else levelPrice ≤ currentPrice

/-- `DcaExecutor::current_price`; `none` is any of its errors. -/
def currentPrice (ticker : TickerRead P) : Option P :=
  match ticker with
  | .ok (some (.ok last)) => if arith.ofNat 0 < last then some last else none
  | _ => none

end Functions

/-- What a tick reads: the ticker, and how the venue answers the order of each level. -/
structure Reading (P : Type) where
  ticker : TickerRead P
  answers : Nat → CreateAnswer

/-- An order that is submitted for a level, and whether the venue has accepted it. -/
structure LevelOrder (P : Type) where
  level : Level P
  request : Request P
  accepted : Bool

/-- The executor, and the orders that it has submitted. -/
structure World (P : Type) where
  state : DcaState
  levelsPlaced : List Bool
  peakPnl : P
  orders : List (LevelOrder P)

/-- `DcaExecutor::new`. -/
def World.new {P : Type} (arith : Arithmetic P) : World P := ⟨.active, [], arith.ofNat 0, []⟩

/-- How a tick ends: it does nothing, it has no price, it divides by zero or another operator overflows,
it has no average to compare with, or it compares the profit with the barriers. -/
inductive Outcome (P : Type) where
  | idle
  | unpriced
  | dividesByZero
  | overflows
  | unaveraged
  | compared (average pnl : P)
  deriving DecidableEq, Repr

section Ticks

variable {P : Type} [LinearOrder P] (arith : Arithmetic P) (config : DcaConfig P)

/-- What is ordered for a level; `none` is the panic of the division. -/
def quantity (level : Level P) : Option P :=
  if level.price = arith.ofNat 0 then none else arith.div level.amount level.price

/-- The order of a level. -/
def order (current : P) (answers : Nat → CreateAnswer) (level : Level P) : Option (LevelOrder P) :=
  (quantity arith level).map fun amount =>
    ⟨level, limitOrder config.exchangeId config.symbol config.isBuy
      (if config.isMaker then level.price else current) amount, (answers level.index).isAccepted⟩

/-- The placements of a tick, with the level at which they panic. A level counts as placed even when its
order is refused. -/
def placeLevels (current : P) (answers : Nat → CreateAnswer) :
    List (Level P) → List Bool → List Bool × List (LevelOrder P) × Option (Level P)
  | [], placed => (placed, [], none)
  | level :: rest, placed =>
    if placed.getD level.index false then placeLevels current answers rest placed
    else if levelActivated level.price current config.isBuy then
      match order arith config current answers level with
      | none => (placed, [], some level)
      | some order =>
        let tail := placeLevels current answers rest (placed.set level.index true)
        (tail.1, order :: tail.2.1, tail.2.2)
    else placeLevels current answers rest placed

/-- The barriers, the first that is met; `none` is the panic of an operator. -/
def barrier [Neg P] (pnl peak : P) : Option DcaState :=
  if arith.ofNat 0 < config.stopLoss ∧ pnl ≤ -config.stopLoss then some .stopLoss
  else if arith.ofNat 0 < config.takeProfit ∧ config.takeProfit ≤ pnl then some .takeProfit
  else if arith.ofNat 0 < config.trailingActivation ∧ config.trailingActivation ≤ peak then
    (arith.sub peak config.trailingDelta).map fun trail => if pnl < trail then .trailingStop else .active
  else some .active

/-- The flags of the levels, which are made anew when their number is another. -/
def World.placed (world : World P) : List Bool :=
  if world.levelsPlaced.length ≠ config.prices.length then config.prices.map fun _ => false
  else world.levelsPlaced

/-- The placements of a tick, put on record. -/
def World.submit (world : World P) (placed : List Bool) (orders : List (LevelOrder P)) : World P :=
  { world with levelsPlaced := placed, orders := world.orders ++ orders }

/-- The profit on an average entry is compared with the barriers. -/
def World.compare [Neg P] (world : World P) (average current : P) : World P × Outcome P :=
  match dcaPnlFraction arith average current config.isBuy with
  | none => (world, .overflows)
  | some fraction =>
    let pnl := fraction.getD (arith.ofNat 0)
    let peak := if world.peakPnl < pnl then pnl else world.peakPnl
    -- An overflow of the trail comes behind the other comparisons and leaves the state as it is.
    ({ world with peakPnl := peak, state := (barrier arith config pnl peak).getD world.state },
      .compared average pnl)

/-- `DcaExecutor::tick`. -/
def World.tick [Neg P] (world : World P) (reading : Reading P) : World P × Outcome P :=
  if world.state ≠ .active then (world, .idle)
  else match currentPrice arith reading.ticker with
    | none => ({ world with levelsPlaced := world.placed config }, .unpriced)
    | some current =>
      let placing := placeLevels arith config current reading.answers config.levels (world.placed config)
      let placed := world.submit placing.1 placing.2.1
      match placing.2.2 with
      | some level => (placed, if level.price = arith.ofNat 0 then .dividesByZero else .overflows)
      | none => match averageEntryPrice arith config.amountsQuote config.prices with
        | none => (placed, .overflows)
        | some none => (placed, .unaveraged)
        | some (some average) => placed.compare arith config average current

def World.step [Neg P] (world : World P) (reading : Reading P) : World P := (world.tick arith config reading).1

end Ticks

section Levels

variable {P : Type}

theorem DcaConfig.levels_indices (config : DcaConfig P) : (config.levels.map Level.index).Nodup := by
  rw [levels, List.map_map]
  exact (List.zipIdx_map_snd 0 _).symm ▸ List.nodup_range'

theorem DcaConfig.levels_nodup (config : DcaConfig P) : config.levels.Nodup :=
  config.levels_indices.of_map

theorem DcaConfig.levels_index_lt {config : DcaConfig P} {level : Level P} (member : level ∈ config.levels) :
    level.index < config.prices.length := by
  obtain ⟨⟨pair, index⟩, found, rfl⟩ := List.mem_map.mp member
  have inside := List.snd_lt_of_mem_zipIdx found
  rw [List.length_zip] at inside
  simp only
  omega

/-- Lists of one length are those of the levels. -/
theorem DcaConfig.levels_lists (config : DcaConfig P)
    (lengths : config.amountsQuote.length = config.prices.length) :
    config.levels.map Level.amount = config.amountsQuote ∧ config.levels.map Level.price = config.prices := by
  have pairs : config.levels.map (fun level => (level.price, level.amount)) =
      config.prices.zip config.amountsQuote := by
    rw [levels, List.map_map]
    exact List.zipIdx_map_fst 0 _
  constructor
  · rw [← List.map_snd_zip lengths.le, ← pairs, List.map_map]
    rfl
  · rw [← List.map_fst_zip lengths.ge, ← pairs, List.map_map]
    rfl

end Levels

section Placing

variable {P : Type} [LinearOrder P] {arith : Arithmetic P} {config : DcaConfig P} {current : P}
  {answers : Nat → CreateAnswer}

/-- A level is not placed yet, and is activated. -/
def due (config : DcaConfig P) (current : P) (placed : List Bool) (level : Level P) : Bool :=
  !placed.getD level.index false && levelActivated level.price current config.isBuy

theorem due_set {placed : List Bool} {index : Nat} {level : Level P} (other : level.index ≠ index) :
    due config current (placed.set index true) level = due config current placed level := by
  simp [due, List.getD_eq_getElem?_getD, List.getElem?_set_ne other.symm]

/-- The flags once these levels are placed. -/
def flagAll (placed : List Bool) (levels : List (Level P)) : List Bool :=
  levels.foldl (fun placed level => placed.set level.index true) placed

/-- The placements submit an order for each level that is due, and count it as placed, up to the first one
whose quantity panics. -/
theorem placeLevels_eq {levels : List (Level P)} (distinct : (levels.map Level.index).Nodup)
    (placed : List Bool) :
    let dues := levels.filter (due config current placed)
    let chosen := dues.takeWhile fun level => (quantity arith level).isSome
    placeLevels arith config current answers levels placed =
      (flagAll placed chosen, chosen.filterMap (order arith config current answers),
        dues.find? fun level => (quantity arith level).isNone) := by
  induction levels generalizing placed with
  | nil => rfl
  | cons level rest ih =>
    obtain ⟨apart, distinct⟩ := List.nodup_cons.mp distinct
    have others : ∀ other ∈ rest,
        due config current (placed.set level.index true) other = due config current placed other :=
      fun other member => due_set fun same => apart (same ▸ List.mem_map_of_mem member)
    rw [placeLevels]
    cases flagged : placed.getD level.index false with
    | true =>
      have undue : due config current placed level = false := by rw [due, flagged]; rfl
      simpa [undue] using ih distinct placed
    | false =>
      cases activated : levelActivated level.price current config.isBuy with
      | false =>
        have undue : due config current placed level = false := by rw [due, activated, Bool.and_false]
        simpa [undue] using ih distinct placed
      | true =>
        have isDue : due config current placed level = true := by rw [due, flagged, activated]; rfl
        have later := ih distinct (placed.set level.index true)
        simp only [List.filter_congr others] at later
        cases asked : quantity arith level with
        | none => simp [isDue, order, asked, flagAll]
        | some amount =>
          simp [isDue, order, asked, later, flagAll]

omit [LinearOrder P] in
theorem flagAll_length (placed : List Bool) (levels : List (Level P)) :
    (flagAll placed levels).length = placed.length := by
  induction levels generalizing placed with
  | nil => rfl
  | cons level rest ih => exact (ih _).trans (List.length_set ..)

omit [LinearOrder P] in
theorem flagAll_getD {placed : List Bool} {levels : List (Level P)} {index : Nat}
    (flag : placed.getD index false = true ∨
      (∃ level ∈ levels, level.index = index) ∧ index < placed.length) :
    (flagAll placed levels).getD index false = true := by
  induction levels generalizing placed with
  | nil =>
    rcases flag with before | ⟨⟨level, member, -⟩, -⟩
    · exact before
    · cases member
  | cons level rest ih =>
    refine ih ?_
    rw [List.length_set]
    by_cases same : level.index = index
    · rcases Nat.lt_or_ge index placed.length with inside | outside
      · subst same
        refine .inl ?_
        rw [List.getD_eq_getElem?_getD, List.getElem?_set_self inside]
        rfl
      · rcases flag with before | ⟨-, inside⟩
        · rw [List.getD_eq_getElem?_getD, List.getElem?_eq_none outside] at before
          cases before
        · exact absurd inside (Nat.not_lt.mpr outside)
    · rcases flag with before | ⟨⟨other, member, found⟩, inside⟩
      · refine .inl ?_
        rwa [List.getD_eq_getElem?_getD, List.getElem?_set_ne same, ← List.getD_eq_getElem?_getD]
      · rcases List.mem_cons.mp member with rfl | later
        · exact absurd found same
        · exact .inr ⟨⟨other, later, found⟩, inside⟩

end Placing

section Barriers

variable {P : Type} [LinearOrder P] (arith : Arithmetic P) (config : DcaConfig P)

/-- The levels whose orders the venue has accepted. -/
def World.held (world : World P) : List (Level P) := (world.orders.filter (·.accepted)).map LevelOrder.level

/-- The average entry of some of the configured levels. -/
def averageOf (takes : Level P → Bool) : Option (Option P) :=
  averageEntryPrice arith ((config.levels.filter takes).map Level.amount)
    ((config.levels.filter takes).map Level.price)

/-- The levels that a tick comes to, and may order. -/
def World.dues (world : World P) (current : P) : List (Level P) :=
  config.levels.filter (due config current (world.placed config))

/-- The levels for which a tick submits an order. -/
def World.chosen (world : World P) (current : P) : List (Level P) :=
  (world.dues config current).takeWhile fun level => (quantity arith level).isSome

/-- The level whose quantity panics. -/
def World.stopper (world : World P) (current : P) : Option (Level P) :=
  (world.dues config current).find? fun level => (quantity arith level).isNone

/-- Whether the order of a level is accepted by the end of a tick. -/
def World.takes (world : World P) (current : P) (answers : Nat → CreateAnswer) (level : Level P) : Bool :=
  level ∈ world.held ∨ level ∈ world.chosen arith config current ∧ (answers level.index).isAccepted

/-- What is accepted is a part of the levels, and is flagged. -/
structure World.Kept (config : DcaConfig P) (world : World P) : Prop where
  within : ∀ level ∈ world.held, level ∈ config.levels
  distinct : world.held.Nodup
  flagged : ∀ level ∈ world.held, (world.placed config).getD level.index false = true

variable {arith config} {world : World P} {reading : Reading P} {current : P}

omit [LinearOrder P] in
theorem World.placed_length (world : World P) : (world.placed config).length = config.prices.length := by
  unfold placed
  split
  · exact List.length_map _
  · rename_i same
    exact not_not.mp same

/-- What the placements of a tick put on record. -/
def World.placeAll (arith : Arithmetic P) (config : DcaConfig P) (world : World P) (current : P)
    (answers : Nat → CreateAnswer) : World P :=
  world.submit (flagAll (world.placed config) (world.chosen arith config current))
    ((world.chosen arith config current).filterMap (order arith config current answers))

@[simp] theorem World.placeAll_state (world : World P) (answers : Nat → CreateAnswer) :
    (world.placeAll arith config current answers).state = world.state := rfl

theorem order_held {answers : Nat → CreateAnswer} {levels : List (Level P)}
    (asked : ∀ level ∈ levels, (quantity arith level).isSome) :
    ((levels.filterMap (order arith config current answers)).filter (·.accepted)).map LevelOrder.level =
      levels.filter fun level => (answers level.index).isAccepted := by
  induction levels with
  | nil => rfl
  | cons level rest ih =>
    obtain ⟨first, others⟩ := List.forall_mem_cons.mp asked
    obtain ⟨amount, quantity_eq⟩ := Option.isSome_iff_exists.mp first
    rw [List.filterMap_cons, order, quantity_eq, Option.map_some]
    cases accepted : (answers level.index).isAccepted <;> simp [accepted, ih others]

theorem World.placeAll_held (world : World P) (answers : Nat → CreateAnswer) :
    (world.placeAll arith config current answers).held = world.held ++
      (world.chosen arith config current).filter fun level => (answers level.index).isAccepted := by
  have asked : ∀ level ∈ world.chosen arith config current, (quantity arith level).isSome :=
    fun level member => by simpa using List.mem_takeWhile_imp member
  rw [placeAll, submit, held, List.filter_append, List.map_append, order_held asked]
  rfl

theorem World.mem_placeAll_held {answers : Nat → CreateAnswer} {level : Level P} :
    level ∈ (world.placeAll arith config current answers).held ↔
      world.takes arith config current answers level = true := by
  rw [placeAll_held, List.mem_append, List.mem_filter]
  simp only [takes, decide_eq_true_eq]

theorem World.Kept.placeAll (kept : world.Kept config) (answers : Nat → CreateAnswer) :
    (world.placeAll arith config current answers).Kept config := by
  have lengths : (world.placeAll arith config current answers).levelsPlaced.length = config.prices.length :=
    (flagAll_length ..).trans world.placed_length
  have chosen_due : (world.chosen arith config current).Sublist (world.dues config current) :=
    List.takeWhile_sublist _
  have ordered : ∀ level ∈ world.chosen arith config current, level ∈ config.levels :=
    fun level member => (List.mem_filter.mp (chosen_due.subset member)).1
  have cases_held : ∀ level ∈ (world.placeAll arith config current answers).held,
      level ∈ world.held ∨ level ∈ world.chosen arith config current := by
    intro level member
    rw [placeAll_held, List.mem_append] at member
    exact member.imp_right fun fresh => (List.mem_filter.mp fresh).1
  refine ⟨?_, ?_, ?_⟩
  · intro level member
    rcases cases_held level member with before | fresh
    · exact kept.within level before
    · exact ordered level fresh
  · rw [placeAll_held]
    refine List.nodup_append.mpr ⟨kept.distinct, ?_, ?_⟩
    · exact ((config.levels_nodup.filter _).sublist chosen_due).filter _
    · rintro level before _ fresh rfl
      have isDue := (List.mem_filter.mp (chosen_due.subset (List.mem_filter.mp fresh).1)).2
      simp only [due, kept.flagged level before, Bool.not_true, Bool.false_and, Bool.false_eq_true] at isDue
  · intro level member
    rw [placed, if_neg (not_not.mpr lengths)]
    refine flagAll_getD ?_
    rcases cases_held level member with before | fresh
    · exact .inl (kept.flagged level before)
    · refine .inr ⟨⟨level, fresh, rfl⟩, ?_⟩
      rw [world.placed_length]
      exact DcaConfig.levels_index_lt (ordered level fresh)

/-- The accepted levels are levels of the configuration, each of them once. -/
theorem World.Kept.held_perm (kept : world.Kept config) :
    world.held.Perm (config.levels.filter (· ∈ world.held)) := by
  refine (List.perm_ext_iff_of_nodup kept.distinct (config.levels_nodup.filter _)).mpr fun level => ?_
  rw [List.mem_filter, decide_eq_true_eq]
  exact ⟨fun member => ⟨kept.within level member, member⟩, And.right⟩

theorem World.averageOf_held (world : World P) :
    averageOf arith config (· ∈ (world.placeAll arith config current reading.answers).held) =
      averageOf arith config (world.takes arith config current reading.answers) := by
  congr 1
  funext level
  exact Bool.eq_iff_iff.mpr (by simpa using World.mem_placeAll_held)

theorem World.averageOf_ne_nil {average : P}
    (averaged : averageOf arith config (· ∈ world.held) = some (some average)) : world.held ≠ [] := by
  intro nothing
  simp [averageOf, averageEntryPrice, nothing] at averaged

variable [Neg P]

/-- A tick leaves the active state for a barrier only with an accepted level, it compares the profit on
the average entry of the accepted levels, each of them once, and it does not divide by zero. -/
def World.Sound (arith : Arithmetic P) (config : DcaConfig P) (world : World P) (reading : Reading P) : Prop :=
  (world.state = .active → (world.step arith config reading).state ≠ .active →
    (world.step arith config reading).held ≠ []) ∧
  (∀ average pnl, (world.tick arith config reading).2 = .compared average pnl →
    (world.step arith config reading).held.Perm
        (config.levels.filter (· ∈ (world.step arith config reading).held)) ∧
      averageOf arith config (· ∈ (world.step arith config reading).held) = some (some average)) ∧
  (world.tick arith config reading).2 ≠ .dividesByZero

/-- The level at which the placements panic has no price of zero, and when there is an average to compare
with, the levels whose orders are not accepted do not change it. -/
def World.Covers (arith : Arithmetic P) (config : DcaConfig P) (world : World P) (reading : Reading P) : Prop :=
  world.state = .active → ∀ current ∈ currentPrice arith reading.ticker,
    (∀ level ∈ world.stopper arith config current, level.price ≠ arith.ofNat 0) ∧
    (world.stopper arith config current = none →
      ∀ average, averageEntryPrice arith config.amountsQuote config.prices = some (some average) →
        (dcaPnlFraction arith average current config.isBuy).isSome →
          averageOf arith config (world.takes arith config current reading.answers) = some (some average))

/-- What is compared, or panics, behind the placements. -/
theorem World.compare_cases (world : World P) (average current : P) :
    ((dcaPnlFraction arith average current config.isBuy).isSome ∧ ∃ pnl peakPnl state,
        world.compare arith config average current = ({ world with peakPnl, state }, .compared average pnl)) ∨
      ¬ (dcaPnlFraction arith average current config.isBuy).isSome ∧
        world.compare arith config average current = (world, .overflows) := by
  unfold World.compare
  cases dcaPnlFraction arith average current config.isBuy with
  | none => exact .inr ⟨nofun, rfl⟩
  | some fraction => exact .inl ⟨rfl, _, _, _, rfl⟩

/-- A tick that has a price puts its placements on record; it panics in them, or compares the profit with
the barriers when there is an average, or does neither. -/
theorem World.tick_cases (active : world.state = .active)
    (read : currentPrice arith reading.ticker = some current) :
    let placed := world.placeAll arith config current reading.answers
    (∃ level, world.stopper arith config current = some level ∧ world.tick arith config reading =
      (placed, if level.price = arith.ofNat 0 then .dividesByZero else .overflows)) ∨
    world.stopper arith config current = none ∧
      ((∃ average pnl peakPnl state,
          averageEntryPrice arith config.amountsQuote config.prices = some (some average) ∧
          (dcaPnlFraction arith average current config.isBuy).isSome ∧
          world.tick arith config reading = ({ placed with peakPnl, state }, .compared average pnl)) ∨
        (∀ average, averageEntryPrice arith config.amountsQuote config.prices = some (some average) →
          ¬ (dcaPnlFraction arith average current config.isBuy).isSome) ∧
        (world.tick arith config reading = (placed, .overflows) ∨
          world.tick arith config reading = (placed, .unaveraged))) := by
  intro placed
  have placing := @placeLevels_eq P _ arith config current reading.answers config.levels
    config.levels_indices (world.placed config)
  unfold tick
  rw [if_neg (not_not.mpr active), read]
  simp only [placing]
  cases stops : world.stopper arith config current with
  | some level =>
    unfold stopper dues at stops
    rw [stops]
    exact .inl ⟨level, rfl, rfl⟩
  | none =>
    unfold stopper dues at stops
    rw [stops]
    refine .inr ⟨rfl, ?_⟩
    cases averageEntryPrice arith config.amountsQuote config.prices with
    | none => exact .inr ⟨nofun, .inl rfl⟩
    | some found =>
      cases found with
      | none => exact .inr ⟨nofun, .inr rfl⟩
      | some average =>
        rcases @World.compare_cases P _ arith config _ placed average current with
          ⟨defined, pnl, peakPnl, state, compared⟩ | ⟨undefined, overflows⟩
        · exact .inl ⟨average, pnl, peakPnl, state, rfl, defined, compared⟩
        · refine .inr ⟨?_, .inl overflows⟩
          rintro _ ⟨⟩
          exact undefined

/-- A tick keeps what is accepted, whatever its outcome. -/
theorem World.Kept.step (kept : world.Kept config) (reading : Reading P) :
    (world.step arith config reading).Kept config := by
  unfold World.step
  by_cases active : world.state = .active
  · cases read : currentPrice arith reading.ticker with
    | none =>
      rw [tick, if_neg (not_not.mpr active), read]
      refine ⟨kept.within, kept.distinct, fun level member => ?_⟩
      rw [placed, if_neg (not_not.mpr world.placed_length)]
      exact kept.flagged level member
    | some current =>
      have after : (world.placeAll arith config current reading.answers).Kept config :=
        kept.placeAll reading.answers
      rcases world.tick_cases active read with
        ⟨level, -, ticked⟩ | ⟨-, ⟨average, pnl, peakPnl, state, -, -, ticked⟩ | ⟨-, ticked | ticked⟩⟩
      · rw [ticked]
        exact after
      · rw [ticked]
        exact ⟨after.within, after.distinct, after.flagged⟩
      · rw [ticked]
        exact after
      · rw [ticked]
        exact after
  · rw [tick, if_pos active]
    exact kept

theorem World.Kept.sound_iff (kept : world.Kept config) :
    world.Sound arith config reading ↔ world.Covers arith config reading := by
  have perm : (world.step arith config reading).held.Perm
      (config.levels.filter (· ∈ (world.step arith config reading).held)) := (kept.step reading).held_perm
  by_cases active : world.state = .active
  · cases read : currentPrice arith reading.ticker with
    | none =>
      have unpriced : world.tick arith config reading =
          ({ world with levelsPlaced := world.placed config }, .unpriced) := by
        rw [tick, if_neg (not_not.mpr active), read]
      simp [Sound, Covers, World.step, unpriced, active, read]
    | some current =>
      have covers_iff : world.Covers arith config reading ↔
          (∀ level ∈ world.stopper arith config current, level.price ≠ arith.ofNat 0) ∧
          (world.stopper arith config current = none → ∀ average,
            averageEntryPrice arith config.amountsQuote config.prices = some (some average) →
              (dcaPnlFraction arith average current config.isBuy).isSome →
                averageOf arith config (world.takes arith config current reading.answers) =
                  some (some average)) := by
        simp [Covers, active, read]
      rw [covers_iff]
      rcases @World.tick_cases P _ arith config world reading current _ active read with ⟨level, stops, ticked⟩ | ⟨through, compared | ⟨undefined, ends⟩⟩
      · simp only [Sound, World.step, ticked, stops, active]
        by_cases zero : level.price = arith.ofNat 0
        · simp [zero]
        · simp [zero, active]
      · obtain ⟨average, pnl, peakPnl, state, averaged, defined, ticked⟩ := compared
        have stepped : world.step arith config reading =
            { world.placeAll arith config current reading.answers with peakPnl, state } := by
          rw [World.step, ticked]
        have held : (world.step arith config reading).held =
            (world.placeAll arith config current reading.answers).held := by
          rw [stepped]
          rfl
        simp only [held] at perm
        simp only [Sound, held, ticked, world.averageOf_held, through, averaged]
        constructor
        · rintro ⟨-, compares, -⟩
          refine ⟨nofun, fun _ other same _ => ?_⟩
          obtain rfl := Option.some.inj (Option.some.inj same)
          exact (compares _ _ rfl).2
        · rintro ⟨-, covers⟩
          have own := covers trivial average rfl defined
          refine ⟨fun _ _ => World.averageOf_ne_nil (world.averageOf_held.trans own), ?_, nofun⟩
          rintro _ _ ⟨⟩
          exact ⟨perm, own⟩
      · refine iff_of_true ?_ ⟨by simp [through], fun _ average averaged defined =>
          absurd defined (undefined average averaged)⟩
        rcases ends with ticked | ticked
        · simp [Sound, World.step, ticked, active]
        · simp [Sound, World.step, ticked, active]
  · have idle : world.tick arith config reading = (world, .idle) := by rw [tick, if_pos active]
    simp [Sound, Covers, idle, active]

/-- In every tick of a run the barriers act on the accepted levels, and nothing is divided by zero, just
if in every tick the placements do not come to a price of zero, and the levels whose orders are not accepted
do not change the average when the barriers are checked. -/
theorem barriers_act_on_accepted_iff (arith : Arithmetic P) (config : DcaConfig P)
    (readings : List (Reading P)) :
    Runs.Along (World.step arith config) (World.Sound arith config) (.new arith) readings ↔
      Runs.Along (World.step arith config) (World.Covers arith config) (.new arith) readings := by
  have start : World.Kept config (.new arith) := ⟨nofun, List.nodup_nil, nofun⟩
  refine @Runs.along_congr _ _ _ (World.Kept config) _ _ ?_ ?_ _ start readings
  · exact fun world reading kept => kept.sound_iff
  · exact fun world reading kept _ => kept.step reading

end Barriers

section Exact

/-- What the levels cost, and what they buy. -/
def quoteOf (levels : List (Level ℚ)) : ℚ := (levels.map Level.amount).sum

def baseOf (levels : List (Level ℚ)) : ℚ :=
  (levels.map fun level => if level.price = 0 then 0 else level.amount / level.price).sum

theorem rational_baseAt (amount price : ℚ) :
    baseAt Arithmetic.rational amount price = some (if price = 0 then 0 else amount / price) := by
  by_cases free : price = 0
  · simp [baseAt, free]
  · simp [baseAt, free, rational_div]

theorem rational_averageEntryPrice (levels : List (Level ℚ)) :
    averageEntryPrice Arithmetic.rational (levels.map Level.amount) (levels.map Level.price) =
      some (if quoteOf levels = 0 ∨ baseOf levels = 0 then none else some (quoteOf levels / baseOf levels)) := by
  have bases : ((levels.map Level.amount).zip (levels.map Level.price)).mapM
      (fun level => baseAt Arithmetic.rational level.1 level.2) =
      some (levels.map fun level => if level.price = 0 then 0 else level.amount / level.price) := by
    simp only [rational_baseAt]
    rw [List.zip_map']
    refine List.mapM_pure.trans ?_
    rw [List.map_map]
    rfl
  have quotes : total Arithmetic.rational (levels.map Level.amount) = some (quoteOf levels) :=
    rational_total _
  have sums : total Arithmetic.rational
      (levels.map fun level => if level.price = 0 then 0 else level.amount / level.price) =
        some (baseOf levels) := rational_total _
  unfold averageEntryPrice
  simp only [bases, quotes, sums, Option.bind_eq_bind, Option.bind_some, List.length_map, ne_eq,
    not_true_eq_false, false_or, rational_ofNat, Nat.cast_zero]
  cases levels with
  | nil => rfl
  | cons level rest =>
    rw [if_neg (by simp)]
    by_cases no_quote : quoteOf (level :: rest) = 0
    · simp [no_quote]
    by_cases no_base : baseOf (level :: rest) = 0
    · simp [no_base]
    · simp [no_quote, no_base, rational_div _ no_base]

theorem quoteOf_add (keeps : Level ℚ → Bool) (levels : List (Level ℚ)) :
    quoteOf levels = quoteOf (levels.filter keeps) + quoteOf (levels.filter (!keeps ·)) := by
  rw [quoteOf, quoteOf, quoteOf, ← List.sum_append, ← List.map_append]
  exact ((List.filter_append_perm keeps levels).map _).sum_eq.symm

theorem baseOf_add (keeps : Level ℚ → Bool) (levels : List (Level ℚ)) :
    baseOf levels = baseOf (levels.filter keeps) + baseOf (levels.filter (!keeps ·)) := by
  rw [baseOf, baseOf, baseOf, ← List.sum_append, ← List.map_append]
  exact ((List.filter_append_perm keeps levels).map _).sum_eq.symm

/-- In exact arithmetic the average of some levels is that of all of them just if the others have it too,
or amount to nothing. -/
theorem rational_average_iff {config : DcaConfig ℚ} {average : ℚ} (keeps : Level ℚ → Bool)
    (averaged : averageEntryPrice Arithmetic.rational config.amountsQuote config.prices =
      some (some average)) :
    let part := config.levels.filter keeps
    let rest := config.levels.filter (!keeps ·)
    averageOf Arithmetic.rational config keeps = some (some average) ↔
      quoteOf part ≠ 0 ∧ baseOf part ≠ 0 ∧ quoteOf rest * baseOf part = quoteOf part * baseOf rest := by
  intro part rest
  have quotes : quoteOf config.levels = quoteOf part + quoteOf rest := quoteOf_add keeps _
  have bases : baseOf config.levels = baseOf part + baseOf rest := baseOf_add keeps _
  have lengths : config.amountsQuote.length = config.prices.length := by
    by_contra different
    simp [averageEntryPrice, different] at averaged
  obtain ⟨amounts, prices⟩ := config.levels_lists lengths
  rw [← amounts, ← prices, rational_averageEntryPrice, Option.some.injEq] at averaged
  rw [averageOf, rational_averageEntryPrice, Option.some.injEq]
  split at averaged
  · cases averaged
  rename_i some_total
  rw [not_or] at some_total
  rw [← Option.some.inj averaged]
  by_cases nothing : quoteOf part = 0 ∨ baseOf part = 0
  · rw [if_pos nothing]
    refine iff_of_false nofun ?_
    tauto
  · rw [if_neg nothing, Option.some.injEq]
    rw [not_or] at nothing
    rw [div_eq_div_iff nothing.2 some_total.2, quotes, bases]
    constructor
    · intro same
      exact ⟨nothing.1, nothing.2, by linarith⟩
    · rintro ⟨-, -, same⟩
      linarith

end Exact

/-- Two levels to buy at, with the default barriers. -/
def buying : DcaConfig ℚ := ⟨⟨"mock", ""⟩, "BTC/USDT", [99, 98], [100, 100], true, true, 5 / 100, 0, 0, 0⟩

/-- One level to sell at, with a price of zero. -/
def selling : DcaConfig ℚ := { buying with prices := [0], amountsQuote := [100], isBuy := false }

/-- A price, and a venue that refuses every order. -/
def refusing : Reading ℚ := ⟨.ok (some (.ok 90)), fun _ => .refused (.transport "refused")⟩

/-- The executor stops the loss of a position of which no order has been accepted, and it divides by a
price of zero. -/
theorem barrier_without_position :
    (((World.new Arithmetic.rounded).tick Arithmetic.rounded buying refusing).1.state = .stopLoss ∧
      ((World.new Arithmetic.rounded).tick Arithmetic.rounded buying refusing).1.held = []) ∧
      ((World.new Arithmetic.rounded).tick Arithmetic.rounded selling refusing).2 = .dividesByZero := by
  decide +kernel

/-- Two levels at three have an average of three, and the first of them alone has another by rounding. -/
example : averageEntryPrice Arithmetic.rounded [1, 2] [3, 3] = some (some 3) ∧
    averageEntryPrice Arithmetic.rounded [1] [3] ≠ some (some 3) := by
  decide +kernel

end LongTrader.Strategy.Dca
